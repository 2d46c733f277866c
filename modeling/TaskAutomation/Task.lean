import TaskAutomation.Check.Leaf
import TaskAutomation.Path

/-!
# Tasks

* `TaskStatus`, `TaskPriority` : the closed sets of words for both;
* `Task` : a task with its owner, its dates and whatever fields its host adds;
* `Task.check` : a task read from a value; `Task.fields` shows it as an object again, its own fields
  first;
* `Task.isClosed` : completed or cancelled, so no longer due;
* `TimeEntry` : time spent on a task, with its `duration` in minutes.
-/

namespace TaskAutomation

open Check

/-- Where a task stands. -/
inductive TaskStatus where
  | pending
  | inProgress
  | completed
  | cancelled
  | blocked
  deriving DecidableEq, Repr

namespace TaskStatus

/-- Every status. -/
def all : List TaskStatus := [.pending, .inProgress, .completed, .cancelled, .blocked]

/-- The word for a status. -/
def name : TaskStatus → String
  | .pending => "pending"
  | .inProgress => "in_progress"
  | .completed => "completed"
  | .cancelled => "cancelled"
  | .blocked => "blocked"

/-- The status of a word. -/
def ofName? (s : String) : Option TaskStatus := all.find? (·.name == s)

/-- A status read from a value. -/
def check : Checker TaskStatus := choice ofName? (all.map name)

/-- The statuses of tasks that are no longer due. -/
def isClosed : TaskStatus → Bool
  | .completed | .cancelled => true
  | _ => false

end TaskStatus

/-- How pressing a task is. -/
inductive TaskPriority where
  | low
  | medium
  | high
  | urgent
  deriving DecidableEq, Repr

namespace TaskPriority

/-- Every priority, the least pressing first. -/
def all : List TaskPriority := [.low, .medium, .high, .urgent]

/-- The word for a priority. -/
def name : TaskPriority → String
  | .low => "low"
  | .medium => "medium"
  | .high => "high"
  | .urgent => "urgent"

/-- The priority of a word. -/
def ofName? (s : String) : Option TaskPriority := all.find? (·.name == s)

/-- A priority read from a value. -/
def check : Checker TaskPriority := choice ofName? (all.map name)

end TaskPriority

/-- A task as its host knows it. -/
structure Task where
  id : String
  userId : String
  clientId : Option String
  title : String
  description : Option String
  status : TaskStatus
  priority : TaskPriority
  tag : Option String
  dueDate : Option Moment
  parentTaskId : Option String
  estimatedHours : Option Float
  actualHours : Float
  progress : Int
  aiGenerated : Bool
  aiConfidence : Option Float
  assigneeIds : List String
  createdAt : Moment
  updatedAt : Moment
  extra : Fields

namespace Task

/-- The fields that every task has. -/
def ownFields : List String :=
  ["id", "user_id", "client_id", "title", "description", "status", "priority", "tag", "due_date",
    "parent_task_id", "estimated_hours", "actual_hours", "progress_percentage", "ai_generated",
    "ai_confidence_score", "assignee_ids", "created_at", "updated_at"]

/-- A task read from the fields of an object. -/
def ofFields (s : Setting) (f : Fields) : Checked Task :=
  Task.mk
    <$> required s f "id" text
    <*> required s f "user_id" text
    <*> optional? s f "client_id" text
    <*> required s f "title" text
    <*> optional? s f "description" text
    <*> optional s f "status" .pending TaskStatus.check
    <*> optional s f "priority" .medium TaskPriority.check
    <*> optional? s f "tag" text
    <*> optional? s f "due_date" momentInUtc
    <*> optional? s f "parent_task_id" text
    <*> optional? s f "estimated_hours" (boundedNumber { least := some 0 })
    <*> optional s f "actual_hours" 0.0 (boundedNumber { least := some 0 })
    <*> optional s f "progress_percentage" 0 (boundedInteger { least := some 0, most := some 100 })
    <*> optional s f "ai_generated" false boolean
    <*> optional? s f "ai_confidence_score" (boundedNumber { least := some 0, most := some 1 })
    <*> optional s f "assignee_ids" [] (items text)
    <*> optional s f "created_at" s.now momentInUtc
    <*> optional s f "updated_at" s.now momentInUtc
    <*> .ok (others ownFields f)

/-- A task read from a value. -/
def check : Checker Task := fun s v => (record "Task" s v).andThen (ofFields s)

/-- A number or null. -/
def numberOrNull : Option Float → Value
  | some x => .float x
  | none => .null

/-- A moment as a text, or null. -/
def momentOrNull : Option Moment → Value
  | some m => .str m.stamp
  | none => .null

/-- The task as an object, its own fields first. -/
def fields (t : Task) : Fields :=
  [("id", .str t.id), ("user_id", .str t.userId), ("client_id", .ofText? t.clientId),
    ("title", .str t.title), ("description", .ofText? t.description),
    ("status", .str t.status.name), ("priority", .str t.priority.name), ("tag", .ofText? t.tag),
    ("due_date", momentOrNull t.dueDate), ("parent_task_id", .ofText? t.parentTaskId),
    ("estimated_hours", numberOrNull t.estimatedHours), ("actual_hours", .float t.actualHours),
    ("progress_percentage", .int t.progress), ("ai_generated", .bool t.aiGenerated),
    ("ai_confidence_score", numberOrNull t.aiConfidence),
    ("assignee_ids", .ofTexts t.assigneeIds), ("created_at", .str t.createdAt.stamp),
    ("updated_at", .str t.updatedAt.stamp)]
    ++ Value.storableFields t.extra

/-- The task as an object. -/
def value (t : Task) : Value := .obj t.fields

/-- Completed or cancelled. -/
def isClosed (t : Task) : Bool := t.status.isClosed

/-- The task as paths see it when it is not shown as an object first: moments keep `+00:00` for UTC,
and whether it is closed is a field. -/
def attributes (t : Task) : Fields :=
  let iso : Option Moment → Value
    | some m => .str m.iso
    | none => .null
  let shown := Fields.merge t.fields
    [("due_date", iso t.dueDate), ("created_at", iso t.createdAt), ("updated_at", iso t.updatedAt)]
  Fields.merge (shown.take ownFields.length ++ t.extra) [("is_closed", .bool t.isClosed)]

/-- The value at a path that begins with the task. -/
def resolve (t : Task) (path : List Char) : Option Value :=
  match Path.segments path with
  | [_] => (Value.obj [("task", t.value)]).resolve path
  | _ => (Value.obj [("task", .obj t.attributes)]).resolve path

end Task

/-- Time spent on a task. -/
structure TimeEntry where
  id : String
  taskId : String
  userId : String
  startTime : Moment
  endTime : Option Moment
  durationMinutes : Option Int
  description : Option String
  isManual : Bool

namespace TimeEntry

/-- A time entry read from the fields of an object. -/
def ofFields (s : Setting) (f : Fields) : Checked TimeEntry :=
  TimeEntry.mk
    <$> required s f "id" text
    <*> required s f "task_id" text
    <*> required s f "user_id" text
    <*> required s f "start_time" momentInUtc
    <*> optional? s f "end_time" momentInUtc
    <*> optional? s f "duration_minutes" (boundedInteger { beyond := some 0 })
    <*> optional? s f "description" text
    <*> optional s f "is_manual" false boolean

/-- A time entry read from a value. -/
def check : Checker TimeEntry := fun s v => (record "TimeEntry" s v).andThen (ofFields s)

/-- An integer or null. -/
def integerOrNull : Option Int → Value
  | some n => .int n
  | none => .null

/-- The time entry as an object. -/
def fields (e : TimeEntry) : Fields :=
  [("id", .str e.id), ("task_id", .str e.taskId), ("user_id", .str e.userId),
    ("start_time", .str e.startTime.stamp), ("end_time", Task.momentOrNull e.endTime),
    ("duration_minutes", integerOrNull e.durationMinutes),
    ("description", .ofText? e.description), ("is_manual", .bool e.isManual)]

/-- The minutes spent: as given, or the whole minutes between start and end. -/
def duration (e : TimeEntry) : Option Int :=
  match e.durationMinutes, e.endTime with
  | some n, _ => some n
  | none, some stop =>
    some (Decimal.floorDivide (Moment.secondsOf (stop.instant - e.startTime.instant)) 60)
  | none, none => none

/-- The time entry with its duration, as conditions see it. -/
def scopeFields (e : TimeEntry) : Fields :=
  Fields.put e.fields "duration" (integerOrNull e.duration)

end TimeEntry

end TaskAutomation
