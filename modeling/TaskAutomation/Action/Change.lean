import TaskAutomation.Action.Occasion
import TaskAutomation.Store.Tasks

/-!
# Actions that change the task at hand

* `Change.status`, `Change.priority`, `Change.reschedule` : one field set to a parameter;
* `Change.estimates` : the estimated hours, as given, or else the hours spent with a buffer on top,
  which are only taken once they exceed the old estimate.
-/

namespace TaskAutomation.Change

open Program

/-- Another status. -/
def status (p : Parameters) (t : Task) (_ : Occasion) : Program Fields := do
  let new ← p.word "status"
  let _ ← Tasks.update t.id [("status", new)]
  return [("updated_task_id", .str t.id), ("old_status", .str t.status.name), ("new_status", new)]

/-- Another priority. -/
def priority (p : Parameters) (t : Task) (_ : Occasion) : Program Fields := do
  let new ← p.word "priority"
  let _ ← Tasks.update t.id [("priority", new)]
  return [("updated_task_id", .str t.id), ("old_priority", .str t.priority.name),
    ("new_priority", new)]

/-- A moment as a text, or null. -/
def momentValue : Option Moment → Value
  | some m => .str m.iso
  | none => .null

/-- Another due date. -/
def reschedule (p : Parameters) (t : Task) (o : Occasion) : Program Fields := do
  let due ← o.dueDate (← p.need "due_date")
  let _ ← Tasks.update t.id [("due_date", due)]
  return [("updated_task_id", .str t.id), ("old_due_date", momentValue t.dueDate),
    ("new_due_date", due)]

/-! ## Estimates -/

/-- A value divided by a positive integer. -/
def quotient (v : Value) (n : Nat) : Except Failure Float :=
  let ofInt (k : Int) : Except Failure Float :=
    let x := Decimal.nearest (decide (k < 0)) k.natAbs n
    if Decimal.isFinite x then .ok x else .error .quotientOverflow
  match v with
  | .int k => ofInt k
  | .bool b => ofInt (if b then 1 else 0)
  | .float x => .ok (Decimal.divide x n)
  | v => .error (.notDivisible (Check.kindName v))

/-- The hours of the time entry in the context, zero if there is none. -/
def trackedHours (o : Occasion) : Except Failure Float :=
  match o.field "time_entry" with
  | .obj entry =>
    match (Fields.get? entry "duration").filter Value.truthy with
    | some minutes => quotient minutes 60
    | none => .ok 0
  | _ => .ok 0

/-- One number is at most another. -/
def atMost (x y : Float) : Bool :=
  match (Decimal.Binary.ofFloat x).cmp? (.ofFloat y) with
  | some .gt => false
  | some _ => true
  | none => false

/-- A result that says why nothing was done. -/
def skipped (reason : String) (more : Fields) : Fields :=
  ("skipped", .bool true) :: ("reason", .str reason) :: more

/-- Sets the estimated hours. -/
def setEstimate (t : Task) (new : Value) : Program Fields := do
  let _ ← Tasks.update t.id [("estimated_hours", new)]
  return [("updated_task_id", .str t.id), ("old_estimated_hours", Task.numberOrNull t.estimatedHours),
    ("new_estimated_hours", new)]

/-- The hours spent with the buffer on top. -/
def buffered (p : Parameters) (actual : Float) : Program Value := do
  let share ← ofExcept (quotient (← p.need "buffer_percent") 100)
  return .float (Decimal.round2 (actual * (1.0 + share)))

/-- Other estimated hours. -/
def estimates (p : Parameters) (t : Task) (o : Occasion) : Program Fields := do
  let actual := t.actualHours + (← ofExcept (trackedHours o))
  match ← p.need "estimated_hours" with
  | .null =>
    if atMost actual 0.0 then return skipped "No tracked time on task" []
    else match t.estimatedHours with
      | some old =>
        if atMost actual old then
          return skipped "Actual hours within estimate"
            [("estimated_hours", .float old), ("actual_hours", .float (Decimal.round2 actual))]
        else setEstimate t (← buffered p actual)
      | none => setEstimate t (← buffered p actual)
  | given => setEstimate t given

end TaskAutomation.Change
