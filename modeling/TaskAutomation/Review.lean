import TaskAutomation.Action.Parameters
import TaskAutomation.Condition
import TaskAutomation.DueDate
import TaskAutomation.Template

/-!
# Reviewing rules

* `Review` : the errors and warnings of a rule's definition; it is valid without errors;
* `Review.rule reference fields` : name, trigger, conditions and actions of a definition, each
  reviewed on its own; dates are tried against the reference;
* a rule on status changes that changes a status itself is warned about, as it may run for ever.
-/

namespace TaskAutomation

/-- What a review of a rule found. -/
structure Review where
  errors : List String := []
  warnings : List String := []
  deriving DecidableEq, Repr

namespace Review

/-- The rule has no errors. -/
def isValid (r : Review) : Bool := r.errors.isEmpty

/-- A text of blanks alone. -/
def isBlankText (s : String) : Bool := s.toList.all Text.isBlank

/-- The errors of a name. -/
def nameErrors (name : Option Value) : List String :=
  match name with
  | none => []
  | some .null => []
  | some v => if isBlankText v.text then ["Rule name cannot be empty"] else []

/-- The trigger of a definition, if there is one. -/
def trigger? : Option Value → Option Trigger
  | some (.str s) => Trigger.ofName? s
  | _ => none

/-- The errors of a trigger. -/
def triggerErrors (trigger : Option Value) : List String :=
  match trigger with
  | none => ["Trigger event is required"]
  | some .null => ["Trigger event is required"]
  | some (.str "") => ["Trigger event is required"]
  | some v => if (trigger? trigger).isSome then [] else ["Invalid trigger event: " ++ v.text]

/-- The errors of one operator of a condition. -/
def operatorErrors (path operator : String) (operand : Value) : List String :=
  match Operator.ofName? operator with
  | none => ["Unknown operator '" ++ operator ++ "' for '" ++ path ++ "'"]
  | some op =>
    match op.isMembership, operand with
    | true, .list _ => []
    | true, _ => ["Operator '" ++ operator ++ "' for '" ++ path ++ "' requires a list"]
    | false, _ => []

/-- The errors of the condition at one path. -/
def conditionErrors (path : String) (spec : Value) : List String :=
  if isBlankText path then ["Condition field path cannot be empty"]
  else match spec with
    | .obj [] => ["Condition for '" ++ path ++ "' has no operator"]
    | .obj [(operator, operand)] => operatorErrors path operator operand
    | .obj _ => ["Condition for '" ++ path ++ "' must have exactly one operator"]
    | _ => []

/-- The errors of the conditions. -/
def conditionsErrors : Option Value → List String
  | none => []
  | some .null => []
  | some (.obj fields) => fields.flatMap fun (path, spec) => conditionErrors path spec
  | some _ => ["Conditions must be an object mapping field paths to conditions"]

/-- The parameters of a type of action that are dates. -/
def dateParameters : ActionType → List String
  | .createTask => ["due_date"]
  | .createFollowUp => ["due_date"]
  | .reschedule => ["due_date"]
  | .createReminder => ["remind_at"]
  | _ => []

/-- The date in a parameter stands for no moment; placeholders are not judged. -/
def isBadDate (reference : Moment) (v : Value) : Bool :=
  match v with
  | .null => false
  | .str s => !Template.hasPlaceholder s && (DueDate.resolve reference v).isNone
  | v => (DueDate.resolve reference v).isNone

/-- The errors of the dates of an action. -/
def dateErrors (reference : Moment) (type : ActionType) (parameters : Fields) : List String :=
  (dateParameters type).filterMap fun name =>
    (parameters.get? name).bind fun v =>
      if isBadDate reference v then some ("invalid date for " ++ name ++ ": " ++ v.quoted) else none

/-- An issue with its place, if it has one. -/
def issueText (i : Check.Issue) : String :=
  if i.path.isEmpty then i.cause.message else i.location ++ ": " ++ i.cause.message

/-- What is said of the parameters of an action of a known type. -/
def parameterErrors (reference : Moment) (type : ActionType) (parameters : Fields) :
    List String :=
  match Parameters.readFor type { now := reference } parameters with
  | .issues found => found.map issueText
  | .ok _ => dateErrors reference type parameters

/-- An action's type and parameters, or what keeps them from being reviewed further. -/
def actionParts (v : Value) : Except String (ActionType × Fields) :=
  match v with
  | .obj fields =>
    match (Fields.get? fields "type").filter Value.truthy with
    | none => .error ": type is required"
    | some type =>
      let known := match type with
        | .str s => ActionType.ofName? s
        | _ => none
      match known with
      | none => .error (": unknown action type '" ++ type.text ++ "'")
      | some t =>
        match (Fields.get? fields "parameters").filter Value.truthy with
        | none => .ok (t, [])
        | some (.obj parameters) => .ok (t, parameters)
        | some _ => .error (" (" ++ t.name ++ "): parameters must be an object")
  | _ => .error ": must be an object"

/-- The errors of the action at a position, counted from 1. -/
def actionErrors (reference : Moment) (position : Nat) (v : Value) : List String :=
  let front := "Action " ++ toString position
  match actionParts v with
  | .error e => [front ++ e]
  | .ok (type, parameters) =>
    (parameterErrors reference type parameters).map fun e =>
      front ++ " (" ++ type.name ++ "): " ++ e

/-- The errors of actions from a position on. -/
def actionsErrorsFrom (reference : Moment) : Nat → List Value → List String
  | _, [] => []
  | n, v :: rest => actionErrors reference n v ++ actionsErrorsFrom reference (n + 1) rest

/-- The actions of a definition, if they are a list. -/
def actionList : Option Value → List Value
  | some (.list items) => items
  | _ => []

/-- The errors of the actions. -/
def actionsErrors (reference : Moment) (actions : Option Value) : List String :=
  match actions.filter Value.truthy with
  | none => ["At least one action is required"]
  | some (.list items) => actionsErrorsFrom reference 1 items
  | some _ => ["Actions must be a list"]

/-- The parameters of an action fit its type. -/
def isKnown (reference : Moment) (type : ActionType) (parameters : Fields) : Bool :=
  match Parameters.readFor type { now := reference } parameters with
  | .ok _ => true
  | .issues _ => false

/-- The warning about an action of a rule on status changes. -/
def loopWarning? (reference : Moment) (v : Value) : Option String :=
  match actionParts v with
  | .error _ => none
  | .ok (type, parameters) =>
    if !isKnown reference type parameters then none
    else match type with
      | .updateStatus =>
        some "update_status on a status_changed trigger may cause an automation loop"
      | .updateRelatedTasks =>
        match parameters.get? "field" with
        | some (.str "status") => some
          "update_related_tasks on status for a status_changed trigger may cause an automation loop"
        | _ => none
      | _ => none

/-- The warnings of a definition. -/
def loopWarnings (reference : Moment) (trigger : Option Value) (actions : Option Value) :
    List String :=
  if trigger? trigger = some .statusChanged then
    (actionList actions).filterMap (loopWarning? reference)
  else []

/-- The review of a definition. -/
def rule (reference : Moment) (f : Fields) : Review where
  errors := nameErrors (f.get? "name") ++ triggerErrors (f.get? "trigger")
    ++ conditionsErrors (f.get? "conditions") ++ actionsErrors reference (f.get? "actions")
  warnings := loopWarnings reference (f.get? "trigger") (f.get? "actions")

end Review

end TaskAutomation
