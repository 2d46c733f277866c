import TaskAutomation.Execution
import TaskAutomation.Review

/-!
# Outcomes

* `RuleOutcome` : what came of one rule for one trigger: not matched, skipped, run and recorded, or
  an error;
* `TriggerOutcome` : what came of all rules for one trigger;
* `Trial` : what a rule would do, without doing it.
-/

namespace TaskAutomation

/-- What came of one rule. -/
structure RuleOutcome where
  ruleId : String
  matched : Bool
  record : Option Execution := none
  skipped : Option String := none
  error : Option String := none

namespace RuleOutcome

/-- The rule ran, and not all of its actions failed. -/
def executed (o : RuleOutcome) : Bool := o.record.any (·.status ≠ .failed)

/-- The outcome as an object. -/
def value (o : RuleOutcome) : Value :=
  .obj [("rule_id", .str o.ruleId), ("matched", .bool o.matched),
    ("record", (o.record.map Execution.value).getD .null), ("skipped_reason", .ofText? o.skipped),
    ("error", .ofText? o.error), ("executed", .bool o.executed)]

end RuleOutcome

/-- What came of the rules on a trigger, or why there are none. -/
structure TriggerOutcome where
  trigger : Trigger
  taskId : String
  outcomes : List RuleOutcome := []
  error : Option String := none

namespace TriggerOutcome

/-- The records of the rules that have one. -/
def records (o : TriggerOutcome) : List Execution := o.outcomes.filterMap RuleOutcome.record

/-- How many rules ran. -/
def executedCount (o : TriggerOutcome) : Nat := o.outcomes.countP RuleOutcome.executed

/-- The outcome as an object. -/
def value (o : TriggerOutcome) : Value :=
  .obj [("trigger", .str o.trigger.name), ("task_id", .str o.taskId), ("error", .ofText? o.error),
    ("executed_count", .int o.executedCount),
    ("outcomes", .list (o.outcomes.map RuleOutcome.value)), ("records", .int o.records.length)]

end TriggerOutcome

/-- What a rule would do. -/
structure Trial where
  ruleId : String
  matched : Bool
  review : Review
  planned : List Action := []
  context : Fields
  error : Option String := none

namespace Trial

/-- An action as it is planned, its parameters filled in. -/
def plannedValue (a : Action) : Value :=
  .obj [("type", .str a.type), ("parameters", .obj a.parameters)]

end Trial

end TaskAutomation
