import TaskAutomation.Task

/-!
# Triggers

* `Trigger` : the events that rules react to; `Trigger.isScheduled` for those that a scan finds;
* `Occurrence` : one trigger with its task and all that is known about it; `daysOverdue` and
  `daysUntilDue` count whole days, rounded down, between the due date and the occurrence;
* `Occurrence.context` : the occurrence as conditions and templates see it.
-/

namespace TaskAutomation

open Check

/-- The events that a rule can be attached to. -/
inductive Trigger where
  | taskCompleted
  | taskOverdue
  | statusChanged
  | timeTracked
  | dueDateApproaching
  deriving DecidableEq, Repr

namespace Trigger

/-- Every trigger. -/
def all : List Trigger :=
  [.taskCompleted, .taskOverdue, .statusChanged, .timeTracked, .dueDateApproaching]

/-- The word for a trigger. -/
def name : Trigger → String
  | .taskCompleted => "task_completed"
  | .taskOverdue => "task_overdue"
  | .statusChanged => "status_changed"
  | .timeTracked => "time_tracked"
  | .dueDateApproaching => "due_date_approaching"

/-- The trigger of a word. -/
def ofName? (s : String) : Option Trigger := all.find? (·.name == s)

/-- A trigger read from a value. -/
def check : Checker Trigger := choice ofName? (all.map name)

/-- The triggers that a periodic scan finds. -/
def scheduled : List Trigger := [.taskOverdue, .dueDateApproaching]

end Trigger

/-- A trigger with its task and what is known about it. -/
structure Occurrence where
  event : Trigger
  task : Task
  previousTask : Option Fields
  timeEntry : Option TimeEntry
  metadata : Fields
  occurredAt : Moment

namespace Occurrence

/-- An occurrence read from the fields of an object. -/
def ofFields (s : Setting) (f : Fields) : Checked Occurrence :=
  Occurrence.mk
    <$> required s f "event" Trigger.check
    <*> required s f "task" Task.check
    <*> optional? s f "previous_task" object
    <*> optional? s f "time_entry" TimeEntry.check
    <*> optional s f "metadata" [] object
    <*> optional s f "occurred_at" s.now momentInUtc

/-- An occurrence read from a value. -/
def check : Checker Occurrence := fun s v => (record "TriggerContext" s v).andThen (ofFields s)

/-- An object or null. -/
def objectOrNull : Option Fields → Value
  | some fields => .obj (Value.storableFields fields)
  | none => .null

/-- The occurrence as an object. -/
def fields (o : Occurrence) : Fields :=
  [("event", .str o.event.name), ("task", o.task.value),
    ("previous_task", objectOrNull o.previousTask),
    ("time_entry", (o.timeEntry.map fun e => Value.obj e.fields).getD .null),
    ("metadata", .obj (Value.storableFields o.metadata)), ("occurred_at", .str o.occurredAt.stamp)]

/-- The days in a number of microseconds, rounded down; both divisions are rounded to doubles. -/
def wholeDays (micros : Int) : Int :=
  (Decimal.floor? (Decimal.divide (Moment.secondsOf micros) 86400)).getD 0

/-- The whole days since the due date. -/
def daysOverdue (o : Occurrence) : Option Int :=
  o.task.dueDate.map fun due => wholeDays (o.occurredAt.instant - due.instant)

/-- The whole days until the due date. -/
def daysUntilDue (o : Occurrence) : Option Int :=
  o.task.dueDate.map fun due => wholeDays (due.instant - o.occurredAt.instant)

/-- The fields of a context that a due date adds. -/
def dueContext (o : Occurrence) : Fields :=
  match o.daysOverdue, o.daysUntilDue with
  | some overdue, some untilDue =>
    [("days_overdue", .int overdue), ("days_until_due", .int untilDue),
      ("is_overdue", .bool (decide (0 < overdue)))]
  | _, _ => []

/-- The fields of a context that a previous task adds. -/
def changeContext (o : Occurrence) : Fields :=
  match o.previousTask with
  | some previous =>
    [("previous_task", .obj previous), ("from_status", (previous.get? "status").getD .null),
      ("to_status", .str o.task.status.name)]
  | none => []

/-- The occurrence as conditions and templates see it. -/
def context (o : Occurrence) : Fields :=
  [("event", .str o.event.name), ("metadata", .obj o.metadata),
    ("occurred_at", .str o.occurredAt.iso)]
    ++ o.dueContext ++ o.changeContext
    ++ (match o.timeEntry with
      | some e => [("time_entry", .obj e.scopeFields)]
      | none => [])

end Occurrence

end TaskAutomation
