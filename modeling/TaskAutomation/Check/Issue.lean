import TaskAutomation.Calendar.Stamp
import TaskAutomation.Value.Text

/-!
# Issues

* `Step` : a field or an item on the way to a part of a value;
* `Cause` : what is wrong with that part; `Cause.kind` is its tag and `Cause.message` its words;
* `Issue` : a cause, where it is, and what was found there.
-/

namespace TaskAutomation.Check

/-- A step from a value into one of its parts. -/
inductive Step where
  | field (name : String)
  | index (n : Nat)
  deriving DecidableEq, Repr

/-- A step as a text. -/
def Step.text : Step → String
  | .field name => name
  | .index n => toString n

/-- A step as a value. -/
def Step.value : Step → Value
  | .field name => .str name
  | .index n => .int n

/-- What is wrong with a value. -/
inductive Cause where
  | missing
  | notText
  | shortText (least : Nat)
  | longText (most : Nat)
  | notInteger
  | integerText
  | integerFraction
  | integerSize
  | notFinite
  | notNumber
  | numberText
  | notBoolean
  | booleanText
  | notList
  | shortList (least found : Nat)
  | notObject
  | notRecord (name : String)
  | notReadable
  | notMember (choices : List String)
  | notLiteral (choices : List String)
  | notMoment
  | badMoment (fault : Stamp.Fault)
  | badDate (fault : Stamp.Fault)
  | below (bound : Int)
  | notAbove (bound : Int)
  | above (bound : Int)
  | refused (message : String)
  | badJson
  deriving DecidableEq, Repr

/-- Choices between quotes, the last one after an "or". -/
def choicesText : List String → String
  | [] => ""
  | [c] => "'" ++ c ++ "'"
  | [c, d] => "'" ++ c ++ "' or '" ++ d ++ "'"
  | c :: rest => "'" ++ c ++ "', " ++ choicesText rest

/-- A number with a noun in the singular or plural. -/
def counted (n : Nat) (noun : String) : String :=
  toString n ++ " " ++ noun ++ (if n = 1 then "" else "s")

namespace Cause

/-- The tag of a cause. -/
def kind : Cause → String
  | .missing => "missing"
  | .notText => "string_type"
  | .shortText _ => "string_too_short"
  | .longText _ => "string_too_long"
  | .notInteger => "int_type"
  | .integerText => "int_parsing"
  | .integerFraction => "int_from_float"
  | .integerSize => "int_parsing_size"
  | .notFinite => "finite_number"
  | .notNumber => "float_type"
  | .numberText => "float_parsing"
  | .notBoolean => "bool_type"
  | .booleanText => "bool_parsing"
  | .notList => "list_type"
  | .shortList .. => "too_short"
  | .notObject => "dict_type"
  | .notRecord _ => "model_type"
  | .notReadable => "model_attributes_type"
  | .notMember _ => "enum"
  | .notLiteral _ => "literal_error"
  | .notMoment => "datetime_type"
  | .badMoment _ => "datetime_parsing"
  | .badDate _ => "datetime_from_date_parsing"
  | .below _ => "greater_than_equal"
  | .notAbove _ => "greater_than"
  | .above _ => "less_than_equal"
  | .refused _ => "value_error"
  | .badJson => "json_invalid"

/-- The words for a cause. -/
def message : Cause → String
  | .missing => "Field required"
  | .notText => "Input should be a valid string"
  | .shortText n => "String should have at least " ++ counted n "character"
  | .longText n => "String should have at most " ++ counted n "character"
  | .notInteger => "Input should be a valid integer"
  | .integerText => "Input should be a valid integer, unable to parse string as an integer"
  | .integerFraction => "Input should be a valid integer, got a number with a fractional part"
  | .integerSize => "Unable to parse input string as an integer, exceeded maximum size"
  | .notFinite => "Input should be a finite number"
  | .notNumber => "Input should be a valid number"
  | .numberText => "Input should be a valid number, unable to parse string as a number"
  | .notBoolean => "Input should be a valid boolean"
  | .booleanText => "Input should be a valid boolean, unable to interpret input"
  | .notList => "Input should be a valid list"
  | .shortList least found =>
    "List should have at least " ++ counted least "item" ++ " after validation, not "
      ++ toString found
  | .notObject => "Input should be a valid dictionary"
  | .notRecord name => "Input should be a valid dictionary or instance of " ++ name
  | .notReadable => "Input should be a valid dictionary or object to extract fields from"
  | .notMember choices => "Input should be " ++ choicesText choices
  | .notLiteral choices => "Input should be " ++ choicesText choices
  | .notMoment => "Input should be a valid datetime"
  | .badMoment fault => "Input should be a valid datetime, " ++ fault.message
  | .badDate fault => "Input should be a valid datetime or date, " ++ fault.message
  | .below n => "Input should be greater than or equal to " ++ toString n
  | .notAbove n => "Input should be greater than " ++ toString n
  | .above n => "Input should be less than or equal to " ++ toString n
  | .refused message => "Value error, " ++ message
  | .badJson => "JSON decode error"

end Cause

/-- A cause with its place and the value found there. -/
structure Issue where
  path : List Step
  cause : Cause
  input : Value

namespace Issue

/-- The steps to the place of an issue, joined with dots. -/
def location (i : Issue) : String := String.intercalate "." (i.path.map Step.text)

/-- The issue seen from one step further out. -/
def under (s : Step) (i : Issue) : Issue := { i with path := s :: i.path }

end Issue

end TaskAutomation.Check
