import TaskAutomation.Trigger

/-!
# Rules

* `ActionType` : the closed set of things a rule can do;
* `Action` : one step of a rule, its type still a plain word so that rules with unknown steps load;
* `Rule` : a user's rule, a trigger with conditions and the actions to run in order, and what is
  known about its runs;
* `Rule.check` reads a rule, `Rule.fields` shows it as an object again.
-/

namespace TaskAutomation

open Check

/-- What an action can do. -/
inductive ActionType where
  | createTask
  | updateStatus
  | updatePriority
  | sendNotification
  | assignUser
  | createFollowUp
  | reschedule
  | addDependency
  | createSubtasks
  | updateRelatedTasks
  | updateDependencies
  | logActivity
  | updateEstimates
  | createReport
  | createReminder
  deriving DecidableEq, Repr

namespace ActionType

/-- Every type of action. -/
def all : List ActionType :=
  [.createTask, .updateStatus, .updatePriority, .sendNotification, .assignUser, .createFollowUp,
    .reschedule, .addDependency, .createSubtasks, .updateRelatedTasks, .updateDependencies,
    .logActivity, .updateEstimates, .createReport, .createReminder]

/-- The word for a type of action. -/
def name : ActionType → String
  | .createTask => "create_task"
  | .updateStatus => "update_status"
  | .updatePriority => "update_priority"
  | .sendNotification => "send_notification"
  | .assignUser => "assign_user"
  | .createFollowUp => "create_follow_up"
  | .reschedule => "reschedule"
  | .addDependency => "add_dependency"
  | .createSubtasks => "create_subtasks"
  | .updateRelatedTasks => "update_related_tasks"
  | .updateDependencies => "update_dependencies"
  | .logActivity => "log_activity"
  | .updateEstimates => "update_estimates"
  | .createReport => "create_report"
  | .createReminder => "create_reminder"

/-- The type of action of a word. -/
def ofName? (s : String) : Option ActionType := all.find? (·.name == s)

end ActionType

/-- One step of a rule. -/
structure Action where
  type : String
  parameters : Fields

namespace Action

/-- An action read from the fields of an object. -/
def ofFields (s : Setting) (f : Fields) : Checked Action :=
  Action.mk
    <$> required s f "type" (textWithin 1 none)
    <*> optional s f "parameters" [] object

/-- An action read from a value. -/
def check : Checker Action := fun s v => (record "Action" s v).andThen (ofFields s)

/-- The action as an object. -/
def fields (a : Action) : Fields :=
  [("type", .str a.type), ("parameters", .obj (Value.storableFields a.parameters))]

/-- The action as an object. -/
def value (a : Action) : Value := .obj a.fields

/-- What the action does, if its word is known. -/
def actionType? (a : Action) : Option ActionType := ActionType.ofName? a.type

end Action

/-- A user's rule. -/
structure Rule where
  id : String
  userId : String
  name : String
  description : String
  trigger : Trigger
  conditions : Fields
  actions : List Action
  isActive : Bool
  executionCount : Int
  lastExecuted : Option Moment
  createdAt : Moment
  updatedAt : Moment

namespace Rule

/-- A rule read from the fields of an object. -/
def ofFields (s : Setting) (f : Fields) : Checked Rule :=
  Rule.mk
    <$> required s f "id" text
    <*> required s f "user_id" text
    <*> required s f "name" text
    <*> optional s f "description" "" text
    <*> required s f "trigger" Trigger.check
    <*> optional s f "conditions" [] object
    <*> required s f "actions" (itemsAtLeast 1 Action.check)
    <*> optional s f "is_active" true boolean
    <*> optional s f "execution_count" 0 (boundedInteger { least := some 0 })
    <*> optional? s f "last_executed" moment
    <*> optional s f "created_at" s.now moment
    <*> optional s f "updated_at" s.now moment

/-- A rule read from a value. -/
def check : Checker Rule := fun s v => (record "AutomationRule" s v).andThen (ofFields s)

/-- The rule as an object. -/
def fields (r : Rule) : Fields :=
  [("id", .str r.id), ("user_id", .str r.userId), ("name", .str r.name),
    ("description", .str r.description), ("trigger", .str r.trigger.name),
    ("conditions", .obj (Value.storableFields r.conditions)),
    ("actions", .list (r.actions.map Action.value)), ("is_active", .bool r.isActive),
    ("execution_count", .int r.executionCount), ("last_executed", Task.momentOrNull r.lastExecuted),
    ("created_at", .str r.createdAt.stamp), ("updated_at", .str r.updatedAt.stamp)]

/-- The rule as an object. -/
def value (r : Rule) : Value := .obj r.fields

end Rule

end TaskAutomation
