import TaskAutomation.Decimal.Layout
import TaskAutomation.Text.Quoted
import TaskAutomation.Value.Basic

/-!
# Values as text

* `Value.quoted v` : how a value is shown inside a list, an object or a message;
* `Value.text v` : how it is shown alone: a text is itself, all else as `quoted`.
-/

namespace TaskAutomation.Value

mutual

/-- A value as it is shown inside other values. -/
def quoted : Value → String
  | .null => "None"
  | .bool b => if b then "True" else "False"
  | .int n => toString n
  | .float x => Decimal.write x
  | .str s => Text.quoted s
  | .list items => "[" ++ String.intercalate ", " (quotedItems items) ++ "]"
  | .obj fields => "\x7b" ++ String.intercalate ", " (quotedFields fields) ++ "\x7d"

/-- The items of a list as they are shown. -/
def quotedItems : List Value → List String
  | [] => []
  | v :: rest => quoted v :: quotedItems rest

/-- The fields of an object as they are shown. -/
def quotedFields : List (String × Value) → List String
  | [] => []
  | (k, v) :: rest => (Text.quoted k ++ ": " ++ quoted v) :: quotedFields rest

end

/-- A value as it is shown alone. -/
def text : Value → String
  | .str s => s
  | v => v.quoted

end TaskAutomation.Value
