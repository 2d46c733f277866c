import TaskAutomation.Path
import TaskAutomation.Text.Case
import TaskAutomation.Text.Search
import TaskAutomation.Value.Text

/-!
# Conditions

* `Operator` : the operators that a condition may name;
* `strictEq actual expected` : equality that tells a boolean from a number;
* `isMember actual values` : equality to an item of a list, or to a value that is no list;
* `compareNumbers op actual expected` : comparison as doubles; texts that are numerals take part,
  what is no number makes it false; an integer beyond all doubles makes it fail;
* `matchText op actual expected` : comparison of texts in lower case;
* `Condition.holds` : one specification against one value. A list asks for membership, an object
  with operators asks for each of them in order up to the first that is false, and all else asks for
  equality;
* `Condition.holdsAll` : every path of a mapping, in order up to the first that is false.
-/

namespace TaskAutomation

/-- The operators of conditions. -/
inductive Operator where
  | eq
  | ne
  | gt
  | ge
  | lt
  | le
  | isIn
  | notIn
  | contains
  | startsWith
  | endsWith
  | changedTo
  | changedFrom
  deriving DecidableEq, Repr

namespace Operator

/-- Every operator, in the order in which they are listed to users. -/
def all : List Operator :=
  [.eq, .ne, .gt, .ge, .lt, .le, .isIn, .notIn, .contains, .startsWith, .endsWith, .changedTo,
    .changedFrom]

/-- The word for an operator. -/
def name : Operator → String
  | .eq => "="
  | .ne => "!="
  | .gt => ">"
  | .ge => ">="
  | .lt => "<"
  | .le => "<="
  | .isIn => "in"
  | .notIn => "not_in"
  | .contains => "contains"
  | .startsWith => "starts_with"
  | .endsWith => "ends_with"
  | .changedTo => "changed_to"
  | .changedFrom => "changed_from"

/-- The operator of a word. -/
def ofName? (s : String) : Option Operator := all.find? (·.name == s)

/-- The operators that compare numbers. -/
def isNumeric : Operator → Bool
  | .gt | .ge | .lt | .le => true
  | _ => false

/-- The operators that compare texts. -/
def isTextual : Operator → Bool
  | .contains | .startsWith | .endsWith => true
  | _ => false

/-- The operators that ask for membership. -/
def isMembership : Operator → Bool
  | .isIn | .notIn => true
  | _ => false

/-- The operators that look at the previous task. -/
def isChange : Operator → Bool
  | .changedTo | .changedFrom => true
  | _ => false

end Operator

namespace Condition

/-- An integer is beyond the largest double, so it cannot be compared as a number. -/
structure Overflow where
  deriving DecidableEq, Repr

/-- The value is a boolean. -/
def isBool : Value → Bool
  | .bool _ => true
  | _ => false

/-- Equality that tells a boolean from a number. -/
def eqBool (a e : Value) : Bool := isBool a == isBool e && a.same e

/-- Equality with the value at a path, false when there is none. -/
def strictEq (actual : Option Value) (expected : Value) : Bool :=
  match actual with
  | none => false
  | some a => eqBool a expected

/-- The alternatives that a membership operand lists. -/
def alternatives : Value → List Value
  | .list items => items
  | v => [v]

/-- Equality to one of the alternatives. -/
def isMember (actual : Option Value) (values : Value) : Bool :=
  match actual with
  | none => false
  | some a => (alternatives values).any (eqBool a)

/-- The double that an operand of a comparison stands for, if any. -/
def comparand (v : Value) : Except Overflow (Option Float) :=
  let keep (x : Float) := if Decimal.Binary.ofFloat x = .nan then none else some x
  match v with
  | .int n => match Decimal.ofInt? n with
    | some x => .ok (some x)
    | none => .error {}
  | .float x => .ok (keep x)
  | .str s => .ok ((Decimal.number? s).bind keep)
  | _ => .ok none

/-- Whether an order of two numbers satisfies an operator. -/
def orderFits (op : Operator) (o : Ordering) : Bool :=
  match op with
  | .gt => o == .gt
  | .ge => o != .lt
  | .lt => o == .lt
  | .le => o != .gt
  | _ => false

/-- Comparison as doubles. -/
def compareNumbers (op : Operator) (actual : Option Value) (expected : Value) :
    Except Overflow Bool := do
  let left ← match actual with
    | some a => comparand a
    | none => pure none
  let right ← comparand expected
  match left, right with
  | some x, some y =>
    match (Decimal.Binary.ofFloat x).cmp? (Decimal.Binary.ofFloat y) with
    | some o => return orderFits op o
    | none => return false
  | _, _ => return false

/-- A value as a text in lower case. -/
def folded : Value → List Char
  | .bool b => if b then ['t', 'r', 'u', 'e'] else ['f', 'a', 'l', 's', 'e']
  | v => Text.lowerAfter [] v.text.toList

/-- Whether a textual operator holds between two texts. -/
def textFits (op : Operator) (needle haystack : List Char) : Bool :=
  match op with
  | .contains => Text.occursIn needle haystack
  | .startsWith => needle.isPrefixOf haystack
  | .endsWith => needle.isSuffixOf haystack
  | _ => false

/-- Comparison of texts in lower case; a list contains the texts of its items. -/
def matchText (op : Operator) (actual : Option Value) (expected : Value) : Bool :=
  match actual, expected with
  | none, _ => false
  | some .null, _ => false
  | _, .null => false
  | some (.list items), e =>
    op == .contains && items.any fun v =>
      match v with
      | .null => false
      | v => folded v == folded e
  | some a, e => textFits op (folded e) (folded a)

/-- The value of the same task field in the previous task. -/
def previous? (path : Option String) (scope : Option Value) : Option Value := do
  let p ← path
  let s ← scope
  match p.toList with
  | 't' :: 'a' :: 's' :: 'k' :: '.' :: rest => s.resolve ("previous_task.".toList ++ rest)
  | _ => none

/-- Whether the value changed to, or from, an expected one. -/
def changed (op : Operator) (previous actual : Option Value) (expected : Value) : Bool :=
  match previous, actual with
  | some p, some a =>
    if op == .changedTo then eqBool a expected && !eqBool p expected
    else eqBool p expected && !eqBool a expected
  | _, _ => false

/-- One operator against the value at a path. -/
def apply (op : Operator) (actual : Option Value) (expected : Value) (path : Option String)
    (scope : Option Value) : Except Overflow Bool :=
  match op with
  | .eq => .ok (strictEq actual expected)
  | .ne => .ok (actual.isSome && !strictEq actual expected)
  | .gt | .ge | .lt | .le => compareNumbers op actual expected
  | .isIn => .ok (isMember actual expected)
  | .notIn => .ok (actual.isNone || !isMember actual expected)
  | .contains | .startsWith | .endsWith => .ok (matchText op actual expected)
  | .changedTo | .changedFrom => .ok (changed op (previous? path scope) actual expected)

/-- The operators that an object names, with their operands, in order. -/
def operators (fields : Fields) : List (Operator × Value) :=
  fields.filterMap fun (k, v) => (Operator.ofName? k).map (·, v)

/-- Every operator in order, up to the first that is false. -/
def applyAll (actual : Option Value) (path : Option String) (scope : Option Value) :
    List (Operator × Value) → Except Overflow Bool
  | [] => .ok true
  | (op, expected) :: rest =>
    match apply op actual expected path scope with
    | .ok true => applyAll actual path scope rest
    | other => other

/-- One specification against the value at a path. -/
def holds (actual : Option Value) (spec : Value) (path : Option String) (scope : Option Value) :
    Except Overflow Bool :=
  match spec with
  | .obj fields =>
    match operators fields with
    | [] => .ok (strictEq actual spec)
    | ops => applyAll actual path scope ops
  | .list _ => .ok (isMember actual spec)
  | _ => .ok (strictEq actual spec)

/-- Every path with its specification in order, up to the first that is false. -/
def holdsAll (scope : Value) : List (String × Value) → Except Overflow Bool
  | [] => .ok true
  | (path, spec) :: rest =>
    match holds (scope.resolve path.toList) spec (some path) (some scope) with
    | .ok true => holdsAll scope rest
    | other => other

end Condition

end TaskAutomation
