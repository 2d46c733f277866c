import TaskAutomation.Action.Occasion
import TaskAutomation.Store.Tasks

/-!
# Actions that create tasks

* `Creation.task` : a new task;
* `Creation.followUp` : a new task that follows the one at hand, pending, with dates and title of
  its own where none are given;
* `Creation.subtasks` : new tasks under the one at hand, which lends them its tag and client.

Every created task belongs to the owner of the task at hand and is marked as generated.
-/

namespace TaskAutomation.Creation

open Program

/-- The fields of every generated task. -/
def generated (t : Task) (o : Occasion) : Fields :=
  [("user_id", .str t.userId), ("ai_generated", .bool true),
    ("ai_confidence_score", .float o.settings.generatedConfidence)]

/-- A new task. -/
def task (p : Parameters) (t : Task) (o : Occasion) : Program Fields := do
  let due ← o.dueDate (← p.need "due_date")
  let fields := generated t o ++
    [("title", ← p.need "title"), ("description", ← p.need "description"),
      ("client_id", (← p.need "client_id").orElse (.ofText? t.clientId)),
      ("priority", ← p.word "priority"), ("status", ← p.word "status"), ("tag", ← p.need "tag"),
      ("due_date", due), ("estimated_hours", ← p.need "estimated_hours"),
      ("parent_task_id", ← p.need "parent_task_id")]
  let created ← Tasks.create fields
  return [("created_task_id", .str created.id), ("title", .str created.title), ("due_date", due)]

/-- A new task that follows the one at hand. -/
def followUp (p : Parameters) (t : Task) (o : Occasion) : Program Fields := do
  let due ← o.dueDate ((← p.need "due_date").orElse (.str o.settings.followUpDue))
  let fields := generated t o ++
    [("title", (← p.need "title").orElse (.str ("Follow up: " ++ t.title))),
      ("description", ← p.need "description"),
      ("client_id", (← p.need "client_id").orElse (.ofText? t.clientId)),
      ("priority", ← p.word "priority"), ("status", .str TaskStatus.pending.name),
      ("tag", ← p.need "tag"), ("due_date", due), ("estimated_hours", ← p.need "estimated_hours")]
  let created ← Tasks.create fields
  return [("created_task_id", .str created.id), ("title", .str created.title), ("due_date", due),
    ("follow_up_for", .str t.id)]

/-- A new task under the one at hand. -/
def subtask (p : Parameters) (t : Task) (o : Occasion) : Program Value := do
  let fields := generated t o ++
    [("title", ← p.need "title"), ("description", ← p.need "description"),
      ("client_id", (← p.need "client_id").orElse (.ofText? t.clientId)),
      ("priority", ← p.word "priority"), ("status", .str TaskStatus.pending.name),
      ("tag", (← p.need "tag").orElse (.ofText? t.tag)),
      ("due_date", ← o.dueDate (← p.need "due_date")),
      ("estimated_hours", ← p.need "estimated_hours")]
  let created ← Tasks.createSubtask t.id fields
  return .str created.id

/-- The items of a value: those of a list, the names of an object's fields, the characters of a
text. -/
def items (v : Value) : Except Failure (List Value) :=
  match v with
  | .list vs => .ok vs
  | .obj fields => .ok (fields.map fun (k, _) => .str k)
  | .str s => .ok (s.toList.map fun c => .str c.toString)
  | v => .error (.notIterable (Check.kindName v))

/-- The field of a subtask that an unread specification lacks first; every text has a title case. -/
def firstLack : Value → String
  | .str _ => "description"
  | _ => "title"

/-- A new task under the one at hand for an item of a list, which has been read for its type or
not. -/
def subtaskOf (isRead : Bool) (t : Task) (o : Occasion) (item : Value) : Program Value :=
  match isRead, item with
  | true, .obj fields => subtask (.ofSubtask fields) t o
  | _, v => .fail (.noAttribute (Check.kindName v) (firstLack v))

/-- New tasks under the one at hand. -/
def subtasks (p : Parameters) (t : Task) (o : Occasion) : Program Fields := do
  let specs ← ofExcept (items (← p.need "subtasks"))
  let ids ← each (subtaskOf (p.declares "subtasks") t o) specs
  return [("parent_task_id", .str t.id), ("created_subtask_ids", .list ids), ("count", .count ids)]

end TaskAutomation.Creation
