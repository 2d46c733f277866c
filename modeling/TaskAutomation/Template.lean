import TaskAutomation.Path
import TaskAutomation.Text.Word
import TaskAutomation.Value.Text

/-!
# Templates

* `Piece` : a character of a template, or a placeholder, a dotted path between braces whose segments
  are words and whose first character is an ASCII letter or an underscore;
* `pieces cs` : the pieces of a text from left to right;
* `fill look cs` : every placeholder replaced by what `look` finds at its path, and left as it is
  where it finds nothing; what is filled in is not looked at again;
* `Template.interpolate scope v` : the texts of a value filled in from a scope, at any depth; the
  names of fields stay.
-/

namespace TaskAutomation.Template

/-- A character, or a placeholder with its path. -/
inductive Piece where
  | char (c : Char)
  | placeholder (path : List Char)
  deriving DecidableEq, Repr

/-- An ASCII letter or an underscore. -/
def isStart (c : Char) : Bool := c.isAlpha || c == '_'

/-- The characters that paths are made of. -/
def isPathChar (c : Char) : Bool := Text.isWord c || c == '.'

/-- A path that a placeholder may have. -/
def isPath (path : List Char) : Bool :=
  (path.head?.map isStart).getD false && (Path.segments path).all fun seg => !seg.isEmpty

/-- The path of the placeholder whose opening brace comes just before this text. -/
def placeholderAt? (cs : List Char) : Option (List Char) :=
  let path := cs.takeWhile isPathChar
  if (cs.drop path.length).head? == some (Char.ofNat 0x7d) then
    if isPath path then some path else none
  else none

/-- The pieces of a text. -/
def pieces : List Char → List Piece
  | [] => []
  | c :: rest =>
    if c == '\x7b' then
      match placeholderAt? rest with
      | some path => .placeholder path :: pieces (rest.drop (path.length + 1))
      | none => .char c :: pieces rest
    else .char c :: pieces rest
termination_by cs => cs.length
decreasing_by
  all_goals simp only [List.length_cons, List.length_drop]
  all_goals omega

/-- The text of a placeholder. -/
def source (path : List Char) : List Char := '\x7b' :: path ++ ['\x7d']

/-- What a value is filled in as. -/
def render : Value → String
  | .null => ""
  | .bool b => if b then "true" else "false"
  | v => v.text

/-- What a piece becomes. -/
def fillPiece (look : List Char → Option Value) : Piece → List Char
  | .char c => [c]
  | .placeholder path =>
    match look path with
    | some v => (render v).toList
    | none => source path

/-- A text with its placeholders filled in. -/
def fill (look : List Char → Option Value) (cs : List Char) : List Char :=
  (pieces cs).flatMap (fillPiece look)

/-- A text filled in from a scope. -/
def fillText (scope : Value) (s : String) : String :=
  String.ofList (fill scope.resolve s.toList)

mutual

/-- A value with its texts filled in. -/
def interpolate (scope : Value) : Value → Value
  | .str s => .str (fillText scope s)
  | .list items => .list (interpolateItems scope items)
  | .obj fields => .obj (interpolateFields scope fields)
  | v => v

/-- The items of a list with their texts filled in. -/
def interpolateItems (scope : Value) : List Value → List Value
  | [] => []
  | v :: rest => interpolate scope v :: interpolateItems scope rest

/-- The fields of an object with their texts filled in. -/
def interpolateFields (scope : Value) : List (String × Value) → List (String × Value)
  | [] => []
  | (k, v) :: rest => (k, interpolate scope v) :: interpolateFields scope rest

end

/-- The paths of the placeholders of a text, in order. -/
def placeholders (s : String) : List (List Char) :=
  (pieces s.toList).filterMap fun
    | .placeholder path => some path
    | .char _ => none

/-- The text holds a placeholder. -/
def hasPlaceholder (s : String) : Bool := !(placeholders s).isEmpty

mutual

/-- A text of the value holds a placeholder, at any depth. -/
def mentions : Value → Bool
  | .str s => hasPlaceholder s
  | .list items => mentionsItems items
  | .obj fields => mentionsFields fields
  | _ => false

/-- A text of an item holds a placeholder. -/
def mentionsItems : List Value → Bool
  | [] => false
  | v :: rest => mentions v || mentionsItems rest

/-- A text of a field's value holds a placeholder. -/
def mentionsFields : List (String × Value) → Bool
  | [] => false
  | (_, v) :: rest => mentions v || mentionsFields rest

end

end TaskAutomation.Template
