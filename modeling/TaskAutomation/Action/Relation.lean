import TaskAutomation.Action.Occasion
import TaskAutomation.Store.Tasks

/-!
# Actions on what a task is related to

* `Relation.assign` : a user assigned to the task;
* `Relation.depend` : a dependency of the task, or of another one, on a third;
* `Relation.updateAll` : one field of all other tasks of the same client or under the same parent;
* `Relation.startDependents` : pending tasks that depend on a completed one get in progress.
-/

namespace TaskAutomation.Relation

open Program

/-- A user assigned to the task. -/
def assign (p : Parameters) (t : Task) (o : Occasion) : Program Fields := do
  let user ← p.need "user_id"
  let id ← Tasks.createAssignment t.id user (o.actor t)
  return [("assignment_id", .str id), ("task_id", .str t.id), ("assigned_user_id", user)]

/-- A dependency on another task. -/
def depend (p : Parameters) (t : Task) (_ : Occasion) : Program Fields := do
  let task := (← p.need "task_id").orElse (.str t.id)
  let other ← p.need "depends_on_task_id"
  if task.same other then .fail .selfDependency
  let id ← Tasks.createDependency task other
  return [("dependency_id", .str id), ("task_id", task), ("depends_on_task_id", other)]

/-- The relation in use: as given, or the client if the task has one, or else the parent. -/
def kind (given : Value) (t : Task) : Value :=
  given.orElse (.str (if (t.clientId.getD "").isEmpty then "parent" else "client"))

/-- The related tasks: those of the client, or those under the same parent; a task without a parent
is related to its own subtasks. -/
def related (t : Task) (byClient : Bool) : Tasks.Relation :=
  if byClient then .of t.clientId none
  else .of none (some ((t.parentTaskId.filter fun s => !s.isEmpty).getD t.id))

/-- One field of all related tasks. -/
def updateAll (p : Parameters) (t : Task) (o : Occasion) : Program Fields := do
  let relation := kind (← p.need "relationship") t
  let given ← p.need "value"
  let field ← p.need "field"
  let value ← if field.same (.str "due_date") then o.dueDate given else pure given
  let byClient := relation.same (.str "client")
  if byClient && (t.clientId.getD "").isEmpty then
    return [("updated_count", .int 0), ("skipped", .bool true),
      ("reason", .str "Task has no client")]
  else
    let ids ← Tasks.updateRelated field.text value t.id (related t byClient)
    return [("relationship", relation), ("field", field), ("value", value),
      ("updated_task_ids", .ofTexts ids), ("updated_count", .count ids)]

/-- The result where no task was started. -/
def noneStarted (reason : String) : Fields :=
  [("started_task_ids", .list []), ("count", .int 0), ("skipped", .bool true),
    ("reason", .str reason)]

/-- Starts a task that is pending. -/
def start (t : Task) : Program (Option String) := do
  if t.status = .pending then
    let _ ← Tasks.update t.id [("status", .str TaskStatus.inProgress.name)]
    return some t.id
  else return none

/-- Starts the pending tasks that depend on a completed one. -/
def startDependents (p : Parameters) (t : Task) (_ : Occasion) : Program Fields := do
  if t.status ≠ .completed then return noneStarted "Task is not completed"
  else if !(← p.need "auto_start").truthy then return noneStarted "auto_start is disabled"
  else
    let ids := (← each start (← Tasks.dependents t.id)).filterMap id
    return [("started_task_ids", .ofTexts ids), ("count", .count ids)]

end TaskAutomation.Relation
