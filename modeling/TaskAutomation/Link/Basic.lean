import TaskAutomation.Link.Padding

/-!
# Addresses of tasks

* `Link.Field` : a place of an address template between braces: a name with steps into its value, a
  conversion and a padding;
* `Link.render template id` : the address of a task: the template with the task's id at every field
  `task_id`. Doubled braces stand for single ones; the padding of a field may hold fields itself.

Fields are filled in from left to right, so the first fault of a template is the one that counts.
-/

namespace TaskAutomation.Link

/-- A place of a template that is filled in. -/
structure Field where
  name : List Char
  conversion : Option Char := none
  padding : List Char := []

/-- The length of the name at the front of a text; what stands in brackets belongs to it. -/
def nameLength : Bool → List Char → Nat
  | _, [] => 0
  | true, c :: rest => nameLength (c != ']') rest + 1
  | false, c :: rest =>
    if c == '\x7b' || c == '\x7d' || c == ':' || c == '!' then 0
    else nameLength (c == '[') rest + 1

/-- The length of the padding up to the brace that closes it, with so many braces open in it. -/
def paddingLength? : Nat → List Char → Option Nat
  | _, [] => none
  | depth, c :: rest =>
    if c == '\x7d' then
      if depth = 0 then some 0 else (paddingLength? (depth - 1) rest).map (· + 1)
    else (paddingLength? (if c == '\x7b' then depth + 1 else depth) rest).map (· + 1)

/-- The padding at the front of a text, and the length of what has been read. -/
def readPadding (cs : List Char) : Except Fault (List Char × Nat) :=
  match paddingLength? 0 cs with
  | some n => .ok (cs.take n, n + 1)
  | none => .error .openPadding

/-- What follows the mark of a conversion, and the length of what has been read. -/
def readConversion : List Char → Except Fault (Char × List Char × Nat)
  | [] => .error .noConversion
  | [_] => .error .openPadding
  | c :: d :: rest =>
    if d == '\x7d' then .ok (c, [], 2)
    else if d == ':' then (readPadding rest).map fun (p, n) => (c, p, n + 2)
    else .error .longConversion

/-- The field whose opening brace comes just before a text, and the length of what has been read. -/
def readField (cs : List Char) : Except Fault (Field × Nat) := do
  let length := nameLength false cs
  let name := cs.take length
  match cs.drop length with
  | '\x7d' :: _ => return ({ name }, length + 1)
  | ':' :: rest =>
    let (padding, n) ← readPadding rest
    return ({ name, padding }, length + 1 + n)
  | '!' :: rest =>
    let (c, padding, n) ← readConversion rest
    return ({ name, conversion := some c, padding }, length + 1 + n)
  | [] => throw .openField
  | _ => throw .braceInName

/-! ## Filling in -/

/-- The position that a whole name stands for. -/
def position? (name : List Char) : Except Fault (Option Nat) := do
  let (n, rest) ← numberAt name
  return if rest.isEmpty then n else none

/-- The value of a name without its steps. -/
def lookup (id : List Char) (name : List Char) : Except Fault (List Char) := do
  match ← position? name with
  | some n => throw (.noPosition n)
  | none =>
    if name.isEmpty then throw (.noPosition 0)
    else if String.ofList name == "task_id" then return id
    else throw (.unknownName (String.ofList name))

/-- The character at a position between brackets. -/
def charAt (value name : List Char) : Except Fault (List Char) := do
  match ← position? name with
  | some n =>
    match value[n]? with
    | some c => return [c]
    | none => throw .pastEnd
  | none => throw (if name.isEmpty then .emptyStep else .noIndex)

/-- The value after some steps. -/
def follow (value : List Char) : List Char → Except Fault (List Char)
  | [] => .ok value
  | c :: rest =>
    if c == '[' then do
      let name := rest.takeWhile (· != ']')
      let next ← charAt value name
      follow next (rest.drop (name.length + 1))
    else if c == '.' then
      let name := rest.takeWhile fun c => c != '.' && c != '['
      .error (if name.isEmpty then .emptyStep else .noAttribute (String.ofList name))
    else .error .noStep
termination_by steps => steps.length
decreasing_by
  simp only [List.length_drop, List.length_cons]
  omega

/-- A value under a conversion. -/
def convert (value : List Char) : Option Char → Except Fault (List Char)
  | none => .ok value
  | some c =>
    let s := String.ofList value
    if c == 's' then .ok value
    else if c == 'r' then .ok (Text.quoted s).toList
    else if c == 'a' then .ok (Text.quotedAscii s).toList
    else .error (.unknownConversion c)

/-- What is filled in for a field, given how fields in its padding are filled in. -/
def Field.render (inner : List Char → Except Fault (List Char)) (id : List Char) (f : Field) :
    Except Fault (List Char) := do
  let isFirst := fun c => c != '.' && c != '['
  let value ← lookup id (f.name.takeWhile isFirst)
  let value ← follow value (f.name.dropWhile isFirst)
  let value ← convert value f.conversion
  let spec ← if f.padding.contains '\x7b' then inner f.padding else .ok f.padding
  if spec.isEmpty then return value else return (← Padding.read spec).apply value

/-- A template with its fields filled in. -/
def expand (inner : List Char → Except Fault (List Char)) (id : List Char) :
    List Char → Except Fault (List Char)
  | [] => .ok []
  | c :: rest =>
    if c == '\x7b' || c == '\x7d' then
      match rest with
      | [] => .error (.loneBrace c)
      | d :: after =>
        if c == d then (expand inner id after).map (c :: ·)
        else if c == '\x7d' then .error (.loneBrace c)
        else do
          let (field, n) ← readField (d :: after)
          let shown ← field.render inner id
          return shown ++ (← expand inner id (after.drop (n - 1)))
    else (expand inner id rest).map (c :: ·)
termination_by cs => cs.length
decreasing_by
  all_goals simp only [List.length_cons, List.length_drop]
  all_goals omega

/-- The address of a task. -/
def render (template id : String) : Except Fault String :=
  let cs := id.toList
  let inner := expand (fun _ => .error .tooDeep) cs
  (expand inner cs template.toList).map String.ofList

end TaskAutomation.Link
