import TaskAutomation.Decimal.Numeral
import TaskAutomation.Value.Basic

/-!
# Paths into values

* `segments p` : the parts of a dotted path, empty ones included;
* `Value.step? v seg` : the field of that name of an object, or the item of that index of a list,
  where a negative index counts from the end; nothing below texts and other leaves;
* `Value.walk v segs` : the steps one after another;
* `Value.resolve v p` : the value at a dotted path; the empty path leads nowhere.
-/

namespace TaskAutomation

namespace Path

/-- The parts of a text between its dots. -/
def segments : List Char → List (List Char)
  | [] => [[]]
  | c :: rest =>
    if c == '.' then [] :: segments rest
    else match segments rest with
      | seg :: segs => (c :: seg) :: segs
      | [] => [[c]]

end Path

namespace Value

/-- The item of a list at an index; a negative index counts from the end. -/
def item? (items : List Value) (i : Int) : Option Value :=
  if 0 ≤ i then items[i.toNat]?
  else if -i ≤ items.length then items[(items.length + i).toNat]?
  else none

/-- One step of a path. -/
def step? (v : Value) (seg : List Char) : Option Value :=
  match v with
  | .obj fields => Fields.get? fields (String.ofList seg)
  | .list items => (Decimal.integer? (String.ofList seg)).bind (item? items)
  | _ => none

/-- The steps of a path one after another. -/
def walk (v : Value) : List (List Char) → Option Value
  | [] => some v
  | seg :: segs => (v.step? seg).bind fun w => walk w segs

/-- The value at a dotted path. -/
def resolve (v : Value) (path : List Char) : Option Value :=
  if path.isEmpty then none else v.walk (Path.segments path)

end Value

end TaskAutomation
