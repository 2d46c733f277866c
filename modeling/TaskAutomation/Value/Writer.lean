import TaskAutomation.Decimal.Layout
import TaskAutomation.Text.Quoted
import TaskAutomation.Value.Basic

/-!
# Writing values as JSON

* `Json.string s` : a text in double quotes with every character outside ASCII escaped, in two
  halves beyond `U+FFFF`;
* `Value.json v` : a value on one line; infinities and no-numbers as bare words;
* `Value.indented v` : a value over several lines, two blanks for each level.
-/

namespace TaskAutomation

namespace Json

/-- A unit of sixteen bits in an escape. -/
def escapeUnit (n : Nat) : List Char := '\\' :: 'u' :: Text.hex 4 n

/-- One character inside double quotes. -/
def escapeChar (c : Char) : List Char :=
  if c == '"' || c == '\\' then ['\\', c]
  else if c == '\n' then ['\\', 'n']
  else if c == '\r' then ['\\', 'r']
  else if c == '\t' then ['\\', 't']
  else if c.toNat == 8 then ['\\', 'b']
  else if c.toNat == 12 then ['\\', 'f']
  else if 32 ≤ c.toNat && c.toNat < 127 then [c]
  else if c.toNat < 0x10000 then escapeUnit c.toNat
  else
    let n := c.toNat - 0x10000
    escapeUnit (0xd800 + n / 0x400) ++ escapeUnit (0xdc00 + n % 0x400)

/-- A text in double quotes. -/
def string (s : String) : String := String.ofList ('"' :: s.toList.flatMap escapeChar ++ ['"'])

/-- A double as a JSON number, or a word for what is none. -/
def float (x : Float) : String :=
  match Decimal.Binary.ofFloat x with
  | .nan => "NaN"
  | .infinite negative => if negative then "-Infinity" else "Infinity"
  | .finite .. => Decimal.write x

end Json

namespace Value

/-- A value that holds no others, as JSON. -/
def leafJson : Value → String
  | .null => "null"
  | .bool b => if b then "true" else "false"
  | .int n => toString n
  | .float x => Json.float x
  | .str s => Json.string s
  | .list _ => "[]"
  | .obj _ => "\x7b\x7d"

mutual

/-- A value on one line. -/
def json : Value → String
  | .list items => "[" ++ String.intercalate ", " (jsonItems items) ++ "]"
  | .obj fields => "\x7b" ++ String.intercalate ", " (jsonFields fields) ++ "\x7d"
  | v => v.leafJson

/-- The items of a list, each on one line. -/
def jsonItems : List Value → List String
  | [] => []
  | v :: rest => json v :: jsonItems rest

/-- The fields of an object, each on one line. -/
def jsonFields : List (String × Value) → List String
  | [] => []
  | (k, v) :: rest => (Json.string k ++ ": " ++ json v) :: jsonFields rest

end

/-- A new line and the blanks of a level. -/
def newLine (level : Nat) : String := String.ofList ('\n' :: List.replicate (2 * level) ' ')

mutual

/-- A value over several lines, at a level. -/
def indentedAt (level : Nat) : Value → String
  | .list (v :: rest) =>
    "[" ++ newLine (level + 1)
      ++ String.intercalate ("," ++ newLine (level + 1)) (indentedItems (level + 1) (v :: rest))
      ++ newLine level ++ "]"
  | .obj (f :: rest) =>
    "\x7b" ++ newLine (level + 1)
      ++ String.intercalate ("," ++ newLine (level + 1)) (indentedFields (level + 1) (f :: rest))
      ++ newLine level ++ "\x7d"
  | v => v.leafJson

/-- The items of a list over several lines. -/
def indentedItems (level : Nat) : List Value → List String
  | [] => []
  | v :: rest => indentedAt level v :: indentedItems level rest

/-- The fields of an object over several lines. -/
def indentedFields (level : Nat) : List (String × Value) → List String
  | [] => []
  | (k, v) :: rest => (Json.string k ++ ": " ++ indentedAt level v) :: indentedFields level rest

end

/-- A value over several lines, two blanks for each level. -/
def indented (v : Value) : String := indentedAt 0 v

end Value

end TaskAutomation
