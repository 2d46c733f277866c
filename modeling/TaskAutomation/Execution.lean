import TaskAutomation.Trigger

/-!
# Executions

* `ActionOutcome` : what one action of a run came to, a result or an error;
* `ExecutionStatus.of` : success if every action succeeded, failure if none did, partial otherwise;
* `Execution` : the record of one run of a rule.
-/

namespace TaskAutomation

open Check

/-- How a run went as a whole. -/
inductive ExecutionStatus where
  | success
  | part
  | failed
  deriving DecidableEq, Repr

namespace ExecutionStatus

/-- Every status of a run. -/
def all : List ExecutionStatus := [.success, .part, .failed]

/-- The word for a status. -/
def name : ExecutionStatus → String
  | .success => "success"
  | .part => "partial"
  | .failed => "failed"

/-- The status of a word. -/
def ofName? (s : String) : Option ExecutionStatus := all.find? (·.name == s)

/-- A status read from a value. -/
def check : Checker ExecutionStatus := choice ofName? (all.map name)

end ExecutionStatus

/-- What one action of a run came to. -/
structure ActionOutcome where
  type : String
  parameters : Fields
  result : Option Fields
  error : Option String
  executedAt : Moment

namespace ActionOutcome

/-- An outcome read from the fields of an object. -/
def ofFields (s : Setting) (f : Fields) : Checked ActionOutcome :=
  ActionOutcome.mk
    <$> required s f "type" text
    <*> optional s f "parameters" [] object
    <*> optional? s f "result" object
    <*> optional? s f "error" text
    <*> optional s f "executed_at" s.now moment

/-- An outcome read from a value. -/
def check : Checker ActionOutcome := fun s v => (record "ActionOutcome" s v).andThen (ofFields s)

/-- The outcome as an object. -/
def fields (o : ActionOutcome) : Fields :=
  [("type", .str o.type), ("parameters", .obj (Value.storableFields o.parameters)),
    ("result", Occurrence.objectOrNull o.result), ("error", .ofText? o.error),
    ("executed_at", .str o.executedAt.stamp)]

/-- The outcome as an object. -/
def value (o : ActionOutcome) : Value := .obj o.fields

/-- The action did not fail. -/
def succeeded (o : ActionOutcome) : Bool := o.error.isNone

end ActionOutcome

/-- The status of a run with these outcomes; one without any has failed. -/
def ExecutionStatus.of (outcomes : List ActionOutcome) : ExecutionStatus :=
  let succeeded := outcomes.countP ActionOutcome.succeeded
  if outcomes ≠ [] ∧ succeeded = outcomes.length then .success
  else if 0 < succeeded then .part
  else .failed

/-- The record of one run of a rule. -/
structure Execution where
  id : String
  ruleId : String
  userId : String
  taskId : String
  trigger : String
  actions : List ActionOutcome
  status : ExecutionStatus
  error : Option String
  executedAt : Moment

namespace Execution

/-- A record read from the fields of an object. -/
def ofFields (s : Setting) (f : Fields) : Checked Execution :=
  Execution.mk
    <$> required s f "id" text
    <*> required s f "rule_id" text
    <*> required s f "user_id" text
    <*> required s f "task_id" text
    <*> required s f "trigger_event" text
    <*> optional s f "executed_actions" [] (items ActionOutcome.check)
    <*> required s f "status" ExecutionStatus.check
    <*> optional? s f "error_message" text
    <*> optional s f "executed_at" s.now moment

/-- A record read from a value. -/
def check : Checker Execution := fun s v => (record "ExecutionRecord" s v).andThen (ofFields s)

/-- The record as an object. -/
def fields (e : Execution) : Fields :=
  [("id", .str e.id), ("rule_id", .str e.ruleId), ("user_id", .str e.userId),
    ("task_id", .str e.taskId), ("trigger_event", .str e.trigger),
    ("executed_actions", .list (e.actions.map ActionOutcome.value)),
    ("status", .str e.status.name), ("error_message", .ofText? e.error),
    ("executed_at", .str e.executedAt.stamp)]

/-- The record as an object. -/
def value (e : Execution) : Value := .obj e.fields

end Execution

end TaskAutomation
