import TaskAutomation.Condition
import TaskAutomation.Engine.Basic
import TaskAutomation.Engine.Outcome
import TaskAutomation.Store.Claims
import TaskAutomation.Store.Rules

/-!
# Running rules

* `Rule.matches?` : whether the conditions of a rule hold for a trigger;
* `Occurrence.dayKey` : the key under which a rule runs once a day for a task and a trigger;
* `Engine.evaluate` : the trial of a rule's conditions, as a call that may fail;
* `Engine.execute` : one rule: its conditions, its claim on the day where days are claimed, its
  actions in order, and the record of all;
* `Engine.runAll`, `Engine.process` : the given rules, or the active ones of the task's owner, on a
  trigger;
* `Engine.trial` : what a rule would do.

An action that fails does not keep the others from running, nor does a rule.
-/

namespace TaskAutomation

open Program

/-- The conditions of a rule hold for a task in a context. -/
def Rule.holds (rule : Rule) (task : Task) (context : Fields) : Except Failure Bool :=
  (Condition.holdsAll (Scope.build task.fields context) rule.conditions).mapError fun _ =>
    .integerOverflow

/-- The conditions of a rule hold for a trigger. -/
def Rule.matches? (rule : Rule) (x : Occurrence) : Except Failure Bool :=
  rule.holds x.task x.context

/-- The key of a rule for a task, a trigger and the day on which it occurred. -/
def Occurrence.dayKey (x : Occurrence) (rule : Rule) : String :=
  rule.id ++ ":" ++ x.task.id ++ ":" ++ x.event.name ++ ":" ++ Moment.dateText x.occurredAt.date

namespace Engine

/-- An operation of the engine. -/
def operation (name : String) : Operation := ⟨"orchestrator", name⟩

/-! ## Actions -/

/-- The outcome of an action at this moment. -/
def outcomeOf (a : Action) (result : Except Failure Fields) : Program ActionOutcome := do
  let base : ActionOutcome := ⟨a.type, a.parameters, none, none, ← now⟩
  match result with
  | .ok fields => return { base with result := some fields }
  | .error f => return { base with error := some f.message }

/-- The context of the next action. -/
def after (context : Fields) : Except Failure Fields → Fields
  | .ok fields => context.put "last_result" (.obj fields)
  | .error _ => context

/-- Runs actions in order; each sees the result of the last one that succeeded. -/
def runActionsFrom (e : Engine) (rule : Rule) (x : Occurrence) :
    Fields → List Action → Program (List ActionOutcome)
  | _, [] => return []
  | context, a :: rest => do
    let result ← attempt (e.dispatch a x.task context (some rule) (some x.occurredAt))
    count (.actionExecuted a.type result.toBool)
    let outcome ← outcomeOf a result
    return outcome :: (← runActionsFrom e rule x (after context result) rest)

/-- Runs the actions of a rule. -/
def runActions (e : Engine) (rule : Rule) (x : Occurrence) : Program (List ActionOutcome) :=
  (operation "_run_actions").guardFor (.run rule x)
    (e.runActionsFrom rule x x.context rule.actions)

/-! ## Records -/

/-- A record of a run at this moment, with a new id. -/
def recordOf (rule : Rule) (x : Occurrence) (actions : List ActionOutcome)
    (status : ExecutionStatus) (error : Option String) : Program Execution := do
  let id := "exec_" ++ Moment.digits 12 (← fresh .execution)
  return ⟨id, rule.id, rule.userId, x.task.id, x.event.name, actions, status, error, ← now⟩

/-- Keeps a record and counts the run. -/
def keep (e : Engine) (record : Execution) : Program Unit :=
  (operation "_record").guard none do
    Rules.recordRun e.settings record
    Rules.countRun record.ruleId record.executedAt
    count (.ruleExecuted record.trigger record.status)

/-- What went wrong with the actions, if anything did. -/
def errorText? (outcomes : List ActionOutcome) : Option String :=
  let errors := outcomes.filterMap fun o => o.error.map fun e => o.type ++ ": " ++ e
  if errors.isEmpty then none else some (String.intercalate "; " errors)

/-! ## Rules -/

/-- Whether the conditions of a rule hold for a trigger; what evaluates them may be out of reach. -/
def evaluate (rule : Rule) (x : Occurrence) : Program Bool :=
  (Operation.mk "evaluator" "evaluate_conditions").guardFor (.run rule x)
    (ofExcept (rule.matches? x))

/-- A rule whose conditions could not be tried. -/
def recordUntried (e : Engine) (rule : Rule) (x : Occurrence) (f : Failure) :
    Program RuleOutcome := do
  let record ← recordOf rule x [] .failed (some ("Condition evaluation failed: " ++ f.message))
  e.keep record
  return { ruleId := rule.id, matched := false, record := some record, error := record.error }

/-- Runs the actions of a rule and records them. -/
def act (e : Engine) (rule : Rule) (x : Occurrence) : Program RuleOutcome := do
  let outcomes ← e.runActions rule x
  let record ← recordOf rule x outcomes (.of outcomes) (errorText? outcomes)
  e.keep record
  return { ruleId := rule.id, matched := true, record := some record }

/-- The rule may run: days are not claimed, or this one is free. -/
def mayAct (e : Engine) (rule : Rule) (x : Occurrence) (oncePerDay : Bool) : Program Bool :=
  if oncePerDay && e.settings.scanDedup then Claims.claim e.settings (x.dayKey rule)
  else return true

/-- Tries one rule on a trigger and runs it if it matches. -/
def execute (e : Engine) (rule : Rule) (x : Occurrence) (oncePerDay : Bool) :
    Program RuleOutcome :=
  (operation "execute_rule").guardFor (.run rule x) do
    match ← attempt (evaluate rule x) with
    | .error f => e.recordUntried rule x f
    | .ok matched =>
      count (.ruleEvaluated x.event matched)
      if !matched then return { ruleId := rule.id, matched := false }
      else if ← e.mayAct rule x oncePerDay then e.act rule x
      else
        count (.ruleDeduplicated x.event)
        return { ruleId := rule.id, matched := true, skipped := some "Already executed today" }

/-- Tries one rule; a failure becomes its outcome. -/
def executeSafely (e : Engine) (x : Occurrence) (oncePerDay : Bool) (rule : Rule) :
    Program RuleOutcome := do
  match ← attempt (e.execute rule x oncePerDay) with
  | .ok outcome => return outcome
  | .error f => return { ruleId := rule.id, matched := true, error := some f.message }

/-- The rules among some that are active and react to a trigger. -/
def candidates (rules : List Rule) (x : Occurrence) : List Rule :=
  rules.filter fun r => r.isActive && decide (r.trigger = x.event)

/-- Tries rules in order. -/
def runAll (e : Engine) (rules : List Rule) (x : Occurrence) (oncePerDay : Bool) :
    Program TriggerOutcome :=
  (operation "run_rules").guard none do
    let outcomes ← each (e.executeSafely x oncePerDay) (candidates rules x)
    return { trigger := x.event, taskId := x.task.id, outcomes }

/-- Tries the active rules of the task's owner. -/
def process (e : Engine) (x : Occurrence) (oncePerDay : Bool) : Program TriggerOutcome :=
  (operation "process").guard none do
    count (.triggerReceived x.event oncePerDay)
    match ← attempt (Rules.active x.task.userId x.event) with
    | .ok rules => e.runAll rules x oncePerDay
    | .error f =>
      return { trigger := x.event, taskId := x.task.id,
               error := some ("Failed to load rules: " ++ f.message) }

/-! ## Trials -/

/-- An action with its parameters filled in. -/
def planned (x : Occurrence) (a : Action) : Action :=
  { a with parameters := a.filled x.task x.context }

/-- What a rule would do on a trigger. -/
def trial (rule : Rule) (x : Occurrence) : Program Trial :=
  (operation "test_rule").guard none do
    let review := Review.rule (← now) rule.fields
    match ← attempt (evaluate rule x) with
    | .error f =>
      return { ruleId := rule.id, matched := false, review, context := x.context,
               error := some ("Condition evaluation failed: " ++ f.message) }
    | .ok matched =>
      return { ruleId := rule.id, matched, review, context := x.context,
               planned := if matched then rule.actions.map (planned x) else [] }

end Engine

end TaskAutomation
