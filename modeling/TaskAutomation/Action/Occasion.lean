import TaskAutomation.Action.Parameters
import TaskAutomation.DueDate
import TaskAutomation.Link.Basic
import TaskAutomation.Program
import TaskAutomation.Settings

/-!
# Occasions

* `Occasion` : when and why an action runs: the settings, the moment that dates count from, the rule
  it belongs to, and the context of its trigger;
* `Parameters.need`, `Parameters.word` : a parameter by name, and a failure without it;
* `Occasion.dueDate` : the text of the moment that a parameter stands for.
-/

namespace TaskAutomation

/-- When and why an action runs. -/
structure Occasion where
  settings : Settings
  now : Moment
  rule : Option Rule
  context : Fields

namespace Occasion

/-- Who acts: the owner of the rule, or else the owner of the task. -/
def actor (o : Occasion) (task : Task) : String :=
  match o.rule with
  | some r => if r.userId.isEmpty then task.userId else r.userId
  | none => task.userId

/-- The address of a task. -/
def link (o : Occasion) (taskId : String) : Program Value :=
  .ofExcept ((Link.render o.settings.taskUrl taskId).map Value.str |>.mapError Failure.badLink)

/-- The text of the moment that a value stands for; null stays null. -/
def dueDate (o : Occasion) (spec : Value) : Program Value :=
  match spec with
  | .null => return .null
  | v =>
    match DueDate.resolve o.now v with
    | some m => return .str m.iso
    | none => .fail (.unparseableDate v)

/-- A field of the context, null where it has none. -/
def field (o : Occasion) (name : String) : Value := (o.context.get? name).getD .null

end Occasion

namespace Parameters

/-- A parameter that an executor reads. -/
def need (p : Parameters) (name : String) : Program Value :=
  match p.get? name with
  | some v => return v
  | none => .fail (.noAttribute p.recordName name)

/-- A parameter that an executor reads as one of a closed set of words. -/
def word (p : Parameters) (name : String) : Program Value := do
  let v ← p.need name
  if p.isWord name then return v else .fail (.noAttribute (Check.kindName v) "value")

end Parameters

namespace Value

/-- The value, or another one in place of null, false, zero and what is empty. -/
def orElse (v other : Value) : Value := if v.truthy then v else other

/-- A number of items. -/
def count {α : Type} (items : List α) : Value := .int items.length

end Value

end TaskAutomation
