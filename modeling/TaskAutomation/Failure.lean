import TaskAutomation.Check.Basic
import TaskAutomation.Check.Report
import TaskAutomation.Link.Fault

/-!
# Failures

* `Failure` : why an operation came to nothing, as a cause; `Failure.kind` is the tag of a cause and
  `Failure.message` its words;
* `Failure.described` : both together, as they are put into longer messages.
-/

namespace TaskAutomation

open Check

/-- Why an operation came to nothing. -/
inductive Failure where
  /-- A rule's definition has errors. -/
  | invalidRule (errors : List String)
  /-- No executor is known for a type of action. -/
  | unknownAction (type : String)
  /-- The parameters of an action do not fit its type, each issue with its place. -/
  | badParameters (type : String) (issues : List Issue)
  /-- A date of an action stands for no moment. -/
  | unparseableDate (spec : Value)
  /-- A task would depend on itself. -/
  | selfDependency
  /-- An executor came to nothing for another cause. -/
  | actionFailed (cause : Failure)
  /-- A record does not fit its type. -/
  | invalidRecord (name : String) (issues : List Issue)
  /-- Nothing is stored under a key. -/
  | absentKey (key : String)
  /-- A value is not one of a closed set of words. -/
  | noMember (value : Value) (set : String)
  /-- Neither a rule nor a user was given. -/
  | noOwner
  /-- An integer is beyond the largest double. -/
  | integerOverflow
  /-- The quotient of an integer is beyond the largest double. -/
  | quotientOverflow
  /-- A moment would leave the years 1 to 9999. -/
  | dateOverflow
  /-- A number of days is too large for a span of time. -/
  | spanOverflow (days : Int)
  /-- Moments with and without an offset have no order. -/
  | mixedClocks
  /-- A value is no number, so it cannot be divided. -/
  | notDivisible (kind : String)
  /-- A value has no fields to copy. -/
  | notMapping (kind : String)
  /-- A value of this kind cannot be stored. -/
  | notStorable (kind : String)
  /-- A record has no field of this name. -/
  | noAttribute (record field : String)
  /-- A value has no items to go through. -/
  | notIterable (kind : String)
  /-- An address template gives no address. -/
  | badLink (fault : Link.Fault)
  /-- An answer would hold an infinity or no number, which it cannot spell. -/
  | notFinite
  /-- Text that is no JSON for another cause than its grammar. -/
  | badNumeral (digits : Nat)
  /-- Nested too deeply. -/
  | tooDeep
  /-- A part of the service cannot be reached. -/
  | unreachable (message : String)

namespace Failure

/-- An issue as its place and its words. -/
def issueText (i : Issue) : String :=
  (if i.path.isEmpty then "parameters" else i.location) ++ ": " ++ i.cause.message

/-- The tag of a failure. -/
def kind : Failure → String
  | .invalidRule _ => "ValidationError"
  | .unknownAction _ => "UnknownActionType"
  | .badParameters .. => "ActionExecutionError"
  | .unparseableDate _ => "ActionExecutionError"
  | .selfDependency => "ActionExecutionError"
  | .actionFailed _ => "ActionExecutionError"
  | .invalidRecord .. => "ValidationError"
  | .absentKey _ => "KeyError"
  | .noMember .. => "ValueError"
  | .noOwner => "ValueError"
  | .integerOverflow => "OverflowError"
  | .quotientOverflow => "OverflowError"
  | .dateOverflow => "OverflowError"
  | .spanOverflow _ => "OverflowError"
  | .mixedClocks => "TypeError"
  | .notDivisible _ => "TypeError"
  | .notMapping _ => "TypeError"
  | .notStorable _ => "DataError"
  | .noAttribute .. => "AttributeError"
  | .notIterable _ => "TypeError"
  | .badLink fault => fault.kind
  | .notFinite => "ValueError"
  | .badNumeral _ => "ValueError"
  | .tooDeep => "RecursionError"
  | .unreachable _ => "ConnectionError"

/-- The words for a failure. -/
def message : Failure → String
  | .invalidRule errors => "Invalid automation rule: " ++ String.intercalate ", " errors
  | .unknownAction type => "Unknown action type: " ++ type
  | .badParameters type issues =>
    "Invalid parameters for " ++ type ++ ": " ++ String.intercalate "; " (issues.map issueText)
  | .unparseableDate spec => "Unparseable date: " ++ spec.quoted
  | .selfDependency => "A task cannot depend on itself"
  | .actionFailed cause => cause.kind ++ ": " ++ cause.message
  | .invalidRecord name issues => report name issues
  | .absentKey key => Text.quoted key
  | .noMember value set => value.quoted ++ " is not a valid " ++ set
  | .noOwner => "rule_id or user_id is required"
  | .integerOverflow => "int too large to convert to float"
  | .quotientOverflow => "integer division result too large for a float"
  | .dateOverflow => "date value out of range"
  | .spanOverflow days =>
    if days < 2147483648 then "days=" ++ toString days ++ "; must have magnitude <= 999999999"
    else "Python int too large to convert to C int"
  | .mixedClocks => "can't compare offset-naive and offset-aware datetimes"
  | .notDivisible k => "unsupported operand type(s) for /: '" ++ k ++ "' and 'int'"
  | .notMapping k => "'" ++ k ++ "' object is not a mapping"
  | .notStorable k =>
    "Invalid input of type: '" ++ k ++ "'. Convert to a bytes, string, int or float first."
  | .noAttribute record field =>
    "'" ++ record ++ "' object has no attribute '" ++ field ++ "'"
  | .notIterable k => "'" ++ k ++ "' object is not iterable"
  | .badLink fault => fault.message
  | .notFinite => "Out of range float values are not JSON compliant"
  | .badNumeral digits =>
    "Exceeds the limit (4300 digits) for integer string conversion: value has "
      ++ toString digits ++ " digits; use sys.set_int_max_str_digits() to increase the limit"
  | .tooDeep => "maximum recursion depth exceeded while decoding a JSON array from a unicode string"
  | .unreachable message => message

/-- The tag and the words. -/
def described (f : Failure) : String := f.kind ++ ": " ++ f.message

/-- A failure of the rules of the engine itself, not of one of its parts. -/
def isOwn : Failure → Bool
  | .invalidRule _ | .unknownAction _ | .badParameters .. | .unparseableDate _ | .selfDependency
  | .actionFailed _ => true
  | _ => false

/-- What failed inside an executor, as the failure of its action. -/
def ofExecutor (f : Failure) : Failure := if f.isOwn then f else .actionFailed f

/-- The result of a check, or the failure of the record that was checked. -/
def ofChecked {α : Type} (name : String) : Checked α → Except Failure α
  | .ok a => .ok a
  | .issues found => .error (.invalidRecord name found)

end Failure

end TaskAutomation
