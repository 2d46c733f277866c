import TaskAutomation.Check.Issue

/-!
# Reports

* `report name issues` : every issue of a record in words, with the value that was found; a long
  value shows its first 25 and last 24 bytes.
-/

namespace TaskAutomation.Check

/-- The word for the kind of a value. -/
def kindName : Value → String
  | .null => "NoneType"
  | .bool _ => "bool"
  | .int _ => "int"
  | .float _ => "float"
  | .str _ => "str"
  | .list _ => "list"
  | .obj _ => "dict"

/-- The longest front of a text within so many bytes. -/
def withinBytes : Nat → List Char → List Char
  | _, [] => []
  | n, c :: rest => if c.utf8Size ≤ n then c :: withinBytes (n - c.utf8Size) rest else []

/-- A long text by its two ends. -/
def shorten (s : String) : String :=
  if s.utf8ByteSize ≤ 50 then s
  else
    let cs := s.toList
    String.ofList (withinBytes 25 cs) ++ "..." ++ String.ofList (withinBytes 24 cs.reverse).reverse

/-- The lines of one issue. -/
def issueLines (i : Issue) : String :=
  let place := if i.path.isEmpty then "" else i.location ++ "\n"
  place ++ "  " ++ i.cause.message ++ " [type=" ++ i.cause.kind ++ ", input_value="
    ++ shorten i.input.quoted ++ ", input_type=" ++ kindName i.input ++ "]"

/-- All issues of a record of the given name. -/
def report (name : String) (issues : List Issue) : String :=
  String.intercalate "\n"
    ((counted issues.length "validation error" ++ " for " ++ name) :: issues.map issueLines)

end TaskAutomation.Check
