import TaskAutomation.Notice
import TaskAutomation.Program

/-!
# Timelines

* `Timeline.append` : an entry in front of a task's timeline, which keeps its newest 500 entries;
* `Timeline.list` : the entries of a task, the newest first.
-/

namespace TaskAutomation.Timeline

open Check Program

/-- An operation of the activity log. -/
def operation (name : String) : Operation := ⟨"activity", name⟩

/-- The most entries that a timeline keeps. -/
def limit : Int := 500

/-- The fields of a new entry. -/
def entryFields (id taskId : String) (userId type description : Value) (metadata : Value) :
    Fields :=
  [("activity_id", .str id), ("task_id", .str taskId), ("user_id", userId),
    ("activity_type", type), ("description", description), ("metadata", metadata)]

/-- Puts an entry in front of a task's timeline. -/
def append (taskId : String) (userId type description : Value) (metadata : Value) :
    Program String :=
  (operation "append").guard (some (.str taskId)) do
    let id := "act_" ++ Moment.digits 12 (← fresh .activity)
    let data := if metadata.truthy then metadata else .obj []
    let entry ← ofChecked "ActivityEntry" (Activity.check (← setting)
      (.obj (entryFields id taskId userId type description data)))
    let key := Key.activity taskId
    store (.push key (.ofDocument entry.fields))
    store (.trim key (limit - 1))
    return entry.id

/-- The entry in a cell. -/
def entryOf (cell : Cell) : Program Activity := do
  ofChecked "ActivityEntry" (Activity.check (← setting) (cell.document?.getD .null))

/-- The entries of a task, the newest first. -/
def list (taskId : String) (last : Int) : Program (List Activity) :=
  (operation "list").guard (some (.str taskId)) do
    let cells : List Cell ← store (.range (.activity taskId) (last - 1))
    each entryOf cells

end TaskAutomation.Timeline
