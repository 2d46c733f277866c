import TaskAutomation.Event
import TaskAutomation.Rule

/-!
# Requests

* `RuleDraft` : a rule as it is first sent, `RulePatch` : the parts of it that change;
* `TriggerDetails` : what is known about a trigger beyond its task;
* `TrialRequest` : a rule and a task, stored or sent along, for a run without effects;
* `RunRequest` : a task for a run of a stored rule;
* `ReviewRequest` : a definition to review; `Switch` : whether a rule is to be active;
* `Page` : one page of a list, by its number and size.
-/

namespace TaskAutomation.Api

open Check

/-- A rule as it is first sent. -/
structure RuleDraft where
  userId : String
  name : String
  description : String
  trigger : Trigger
  conditions : Fields
  actions : List Action
  isActive : Bool

namespace RuleDraft

/-- A draft read from the fields of an object. -/
def ofFields (s : Setting) (f : Fields) : Checked RuleDraft :=
  RuleDraft.mk
    <$> required s f "user_id" (textWithin 1 none)
    <*> required s f "name" (textWithin 1 (some 100))
    <*> optional s f "description" "" (textWithin 0 (some 500))
    <*> required s f "trigger" Trigger.check
    <*> optional s f "conditions" [] object
    <*> optional s f "actions" [] (items Action.check)
    <*> optional s f "is_active" true boolean

/-- A draft read from a value. -/
def check : Checker RuleDraft := fun s v => (record "RuleCreate" s v).andThen (ofFields s)

/-- The draft as an object. -/
def fields (d : RuleDraft) : Fields :=
  [("user_id", .str d.userId), ("name", .str d.name), ("description", .str d.description),
    ("trigger", .str d.trigger.name), ("conditions", .obj (Value.storableFields d.conditions)),
    ("actions", .list (d.actions.map Action.value)), ("is_active", .bool d.isActive)]

/-- The rule of a draft; it has an action at least. -/
def rule (d : RuleDraft) (id : String) (createdAt updatedAt : Moment) : Rule where
  id := id
  userId := d.userId
  name := d.name
  description := d.description
  trigger := d.trigger
  conditions := d.conditions
  actions := d.actions
  isActive := d.isActive
  executionCount := 0
  lastExecuted := none
  createdAt := createdAt
  updatedAt := updatedAt

end RuleDraft

/-- The parts of a rule that change. -/
structure RulePatch where
  name : Option String
  description : Option String
  trigger : Option Trigger
  conditions : Option Fields
  actions : Option (List Action)
  isActive : Option Bool

namespace RulePatch

/-- A patch read from the fields of an object. -/
def ofFields (s : Setting) (f : Fields) : Checked RulePatch :=
  RulePatch.mk
    <$> optional? s f "name" (textWithin 1 (some 100))
    <*> optional? s f "description" (textWithin 0 (some 500))
    <*> optional? s f "trigger" Trigger.check
    <*> optional? s f "conditions" object
    <*> optional? s f "actions" (items Action.check)
    <*> optional? s f "is_active" boolean

/-- A patch read from a value. -/
def check : Checker RulePatch := fun s v => (record "RuleUpdate" s v).andThen (ofFields s)

/-- The patch as an object, null for what does not change. -/
def fields (p : RulePatch) : Fields :=
  [("name", .ofText? p.name), ("description", .ofText? p.description),
    ("trigger", .ofText? (p.trigger.map Trigger.name)),
    ("conditions", Occurrence.objectOrNull p.conditions),
    ("actions", (p.actions.map fun as => Value.list (as.map Action.value)).getD .null),
    ("is_active", (p.isActive.map Value.bool).getD .null)]

/-- The fields that change. -/
def changes (p : RulePatch) : Fields :=
  p.fields.filter fun (_, v) =>
    match v with
    | .null => false
    | _ => true

end RulePatch

/-- What is known about a trigger beyond its task. -/
structure TriggerDetails where
  oldStatus : Option TaskStatus
  previousTask : Option Fields
  timeEntry : Option TimeEntry
  metadata : Fields

namespace TriggerDetails

/-- Details read from the fields of an object. -/
def ofFields (s : Setting) (f : Fields) : Checked TriggerDetails :=
  TriggerDetails.mk
    <$> optional? s f "old_status" TaskStatus.check
    <*> optional? s f "previous_task" object
    <*> optional? s f "time_entry" TimeEntry.check
    <*> optional s f "metadata" [] object

/-- Details read from a value. -/
def check : Checker TriggerDetails := fun s v => (record "TriggerInput" s v).andThen (ofFields s)

/-- The details as an object. -/
def fields (d : TriggerDetails) : Fields :=
  [("old_status", .ofText? (d.oldStatus.map TaskStatus.name)),
    ("previous_task", Occurrence.objectOrNull d.previousTask),
    ("time_entry", (d.timeEntry.map fun e => Value.obj e.fields).getD .null),
    ("metadata", .obj (Value.storableFields d.metadata))]

/-- The trigger with these details, at a moment. -/
def occurrence (d : TriggerDetails) (event : Trigger) (task : Task) (now : Moment) :
    Occurrence where
  event := event
  task := task
  previousTask := Event.previous d.oldStatus d.previousTask
  timeEntry := d.timeEntry
  metadata := d.metadata
  occurredAt := now

end TriggerDetails

/-- A rule and a task for a run without effects. -/
structure TrialRequest where
  details : TriggerDetails
  ruleId : Option String
  rule : Option RuleDraft
  taskId : Option String
  task : Option Task

namespace TrialRequest

/-- A request read from the fields of an object, its sources not yet compared. -/
def ofFields (s : Setting) (f : Fields) : Checked TrialRequest :=
  TrialRequest.mk
    <$> TriggerDetails.ofFields s f
    <*> optional? s f "rule_id" text
    <*> optional? s f "rule" RuleDraft.check
    <*> optional? s f "task_id" text
    <*> optional? s f "task" Task.check

/-- What is wrong with the sources of rule and task. -/
def clash? (r : TrialRequest) : Option String :=
  if r.ruleId.isNone == r.rule.isNone then some "Exactly one of rule_id or rule is required"
  else if r.taskId.isNone == r.task.isNone then some "Exactly one of task_id or task is required"
  else none

/-- A request read from a value. -/
def check : Checker TrialRequest := fun s v =>
  ((record "TestRequest" s v).andThen (ofFields s)).andThen fun r =>
    match r.clash? with
    | some message => .fault (.refused message) v
    | none => .ok r

/-- The request as an object. -/
def fields (r : TrialRequest) : Fields :=
  r.details.fields ++ [("rule_id", .ofText? r.ruleId),
    ("rule", (r.rule.map fun d => Value.obj d.fields).getD .null),
    ("task_id", .ofText? r.taskId), ("task", (r.task.map Task.value).getD .null)]

end TrialRequest

/-- A task for a run of a stored rule. -/
structure RunRequest where
  details : TriggerDetails
  taskId : String

namespace RunRequest

/-- A request read from the fields of an object. -/
def ofFields (s : Setting) (f : Fields) : Checked RunRequest :=
  RunRequest.mk <$> TriggerDetails.ofFields s f <*> required s f "task_id" text

/-- A request read from a value. -/
def check : Checker RunRequest := fun s v => (record "ExecuteRequest" s v).andThen (ofFields s)

/-- The request as an object. -/
def fields (r : RunRequest) : Fields := r.details.fields ++ [("task_id", .str r.taskId)]

end RunRequest

/-- A definition to review. -/
structure ReviewRequest where
  definition : Fields

/-- A definition to review, read from a value. -/
def ReviewRequest.check : Checker ReviewRequest := fun s v =>
  (record "ValidateRequest" s v).andThen fun f =>
    ReviewRequest.mk <$> required s f "rule_config" object

/-- Whether a rule is to be active. -/
structure Switch where
  isActive : Bool

/-- Whether a rule is to be active, read from a value. -/
def Switch.check : Checker Switch := fun s v =>
  (record "RuleStatusUpdate" s v).andThen fun f => Switch.mk <$> required s f "is_active" boolean

/-- One page of a list. -/
structure Page where
  number : Int
  size : Int
  deriving DecidableEq, Repr

namespace Page

/-- A page read from the fields of an object. -/
def ofFields (s : Setting) (f : Fields) : Checked Page :=
  Page.mk
    <$> optional s f "page" 1 (boundedInteger { least := some 1 })
    <*> optional s f "page_size" 20 (boundedInteger { least := some 1, most := some 100 })

/-- A page read from a value. -/
def check : Checker Page := fun s v => (record "PaginationParams" s v).andThen (ofFields s)

/-- The page as an object. -/
def fields (p : Page) : Fields := [("page", .int p.number), ("page_size", .int p.size)]

/-- The number of items before the page. -/
def offset (p : Page) : Int := (p.number - 1) * p.size

/-- The items of a list that are on the page. -/
def slice {α : Type} (p : Page) (items : List α) : List α :=
  (items.drop p.offset.toNat).take p.size.toNat

end Page

end TaskAutomation.Api
