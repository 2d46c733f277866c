import TaskAutomation.Trigger

/-!
# Events

* `Event` : a change of a task as its host reports it, with an id that tells repetitions apart;
* `Event.check` : an event read from a value; time that was tracked comes with its entry, and a
  changed status with the old one;
* `Event.occurrence` : the trigger that the event fires.
-/

namespace TaskAutomation

open Check

/-- A change of a task, reported by its host. -/
structure Event where
  id : String
  type : Trigger
  task : Task
  oldStatus : Option TaskStatus
  previousTask : Option Fields
  timeEntry : Option TimeEntry
  metadata : Fields
  timestamp : Moment

namespace Event

/-- An event read from the fields of an object, its parts not yet compared. -/
def ofFields (s : Setting) (f : Fields) : Checked Event :=
  Event.mk
    <$> required s f "event_id" text
    <*> required s f "event_type" Trigger.check
    <*> required s f "task" Task.check
    <*> optional? s f "old_status" TaskStatus.check
    <*> optional? s f "previous_task" object
    <*> optional? s f "time_entry" TimeEntry.check
    <*> optional s f "metadata" [] object
    <*> optional s f "timestamp" s.now moment

/-- A status before the change is known. -/
def tellsOldStatus (e : Event) : Bool :=
  e.oldStatus.isSome || (e.previousTask.map fun p => p.has "status").getD false

/-- What is missing from an event of its type. -/
def lack? (e : Event) : Option String :=
  if e.type = .timeTracked ∧ e.timeEntry.isNone then
    some "time_tracked events require a time_entry"
  else if e.type = .statusChanged ∧ !e.tellsOldStatus then
    some "status_changed events require old_status"
  else none

/-- An event read from a value. -/
def check : Checker Event := fun s v =>
  ((record "TaskEvent" s v).andThen (ofFields s)).andThen fun e =>
    match e.lack? with
    | some message => .fault (.refused message) v
    | none => .ok e

/-- The event as an object. -/
def fields (e : Event) : Fields :=
  [("event_id", .str e.id), ("event_type", .str e.type.name), ("task", e.task.value),
    ("old_status", .ofText? (e.oldStatus.map TaskStatus.name)),
    ("previous_task", Occurrence.objectOrNull e.previousTask),
    ("time_entry", (e.timeEntry.map fun t => Value.obj t.fields).getD .null),
    ("metadata", .obj (Value.storableFields e.metadata)), ("timestamp", .str e.timestamp.stamp)]

/-- The task before a change, with the old status if that is known on its own. -/
def previous (oldStatus : Option TaskStatus) (snapshot : Option Fields) : Option Fields :=
  match oldStatus with
  | some s => some (Fields.put (snapshot.getD []) "status" (.str s.name))
  | none => snapshot

/-- The trigger that an event fires. -/
def occurrence (e : Event) : Occurrence where
  event := e.type
  task := e.task
  previousTask := previous e.oldStatus e.previousTask
  timeEntry := e.timeEntry
  metadata := Fields.put e.metadata "event_id" (.str e.id)
  occurredAt := e.timestamp.inUtc

end Event

end TaskAutomation
