import TaskAutomation.Decimal.Binary

/-!
# Values

* `Value` : the data that rules look at and records are read from: null, booleans, integers of any
  size, doubles, texts, lists, and objects whose fields keep the order in which they were first set;
* `Fields.get?`, `Fields.put`, `Fields.ofList`, `Fields.merge` : objects as ordered tables;
* `Value.same` : equality of values, for which a boolean is the number 0 or 1, numbers are compared
  exactly, and the order of an object's fields does not count;
* `Value.storable` : the value with null for every infinity and no-number; after it
  `Value.allFinite` holds (`Value.allFinite_storable`).
-/

namespace TaskAutomation

/-- Structured data. -/
inductive Value where
  | null
  | bool (b : Bool)
  | int (n : Int)
  | float (x : Float)
  | str (s : String)
  | list (items : List Value)
  | obj (fields : List (String × Value))
  deriving Inhabited

/-- The fields of an object, in order. -/
abbrev Fields := List (String × Value)

namespace Fields

/-- The value of a field. -/
def get? (fields : Fields) (key : String) : Option Value := List.lookup key fields

/-- The object has a field of this name. -/
def has (fields : Fields) (key : String) : Bool := (fields.get? key).isSome

/-- Sets a field; a field that is there keeps its place. -/
def put : Fields → String → Value → Fields
  | [], key, v => [(key, v)]
  | (k, old) :: rest, key, v => if k == key then (k, v) :: rest else (k, old) :: put rest key v

/-- The object without a field. -/
def erase (fields : Fields) (key : String) : Fields := fields.filter (·.1 != key)

/-- Sets every field of `more` in order. -/
def merge (fields more : Fields) : Fields := more.foldl (fun fs (k, v) => put fs k v) fields

/-- The object written by a list of fields: the last value of a repeated one, in its first place. -/
def ofList (fields : List (String × Value)) : Fields := merge [] fields

end Fields

namespace Value

/-- The exact number that a value stands for; booleans count as 0 and 1. -/
def number? : Value → Option Decimal.Binary
  | .bool b => some (.ofInt (if b then 1 else 0))
  | .int n => some (.ofInt n)
  | .float x => some (.ofFloat x)
  | _ => none

/-- Equality of two values that are no lists or objects. -/
def sameLeaf (a b : Value) : Bool :=
  match a.number?, b.number? with
  | some x, some y => x.eqv y
  | none, none =>
    match a, b with
    | .null, .null => true
    | .str s, .str t => s == t
    | _, _ => false
  | _, _ => false

mutual

/-- Equality of values: numbers by their exact value, objects without regard to order. -/
def same : Value → Value → Bool
  | .list xs, .list ys => sameList xs ys
  | .list _, _ => false
  | .obj xs, .obj ys => xs.length == ys.length && sameFields xs ys
  | .obj _, _ => false
  | a, b => sameLeaf a b

/-- Two lists have the same length and equal items. -/
def sameList : List Value → List Value → Bool
  | [], [] => true
  | x :: xs, y :: ys => same x y && sameList xs ys
  | _, _ => false

/-- Every field of the first object is in the second with an equal value. -/
def sameFields : List (String × Value) → List (String × Value) → Bool
  | [], _ => true
  | (k, v) :: rest, ys =>
    (match Fields.get? ys k with
      | some w => same v w
      | none => false) && sameFields rest ys

end

/-- The value of a field of an object. -/
def get? : Value → String → Option Value
  | .obj fields, key => Fields.get? fields key
  | _, _ => none

/-- Whether a value counts as true: not null, false, zero, or empty. -/
def truthy : Value → Bool
  | .null => false
  | .bool b => b
  | .int n => n != 0
  | .float x => !(Decimal.Binary.ofFloat x).eqv (.ofInt 0)
  | .str s => !s.isEmpty
  | .list items => !items.isEmpty
  | .obj fields => !fields.isEmpty

/-- A text or null. -/
def ofText? : Option String → Value
  | some s => .str s
  | none => .null

/-- A list of texts. -/
def ofTexts (items : List String) : Value := .list (items.map .str)

mutual

/-- The value without infinities and no-numbers: they become null. -/
def storable : Value → Value
  | .float x => if Decimal.isFinite x then .float x else .null
  | .list items => .list (storableList items)
  | .obj fields => .obj (storableFields fields)
  | v => v

/-- `storable` of every item. -/
def storableList : List Value → List Value
  | [] => []
  | v :: rest => storable v :: storableList rest

/-- `storable` of every field. -/
def storableFields : List (String × Value) → List (String × Value)
  | [] => []
  | (k, v) :: rest => (k, storable v) :: storableFields rest

end

mutual

/-- Every number in the value is finite. -/
def allFinite : Value → Bool
  | .float x => Decimal.isFinite x
  | .list items => allFiniteList items
  | .obj fields => allFiniteFields fields
  | _ => true

/-- `allFinite` of every item. -/
def allFiniteList : List Value → Bool
  | [] => true
  | v :: rest => allFinite v && allFiniteList rest

/-- `allFinite` of every field. -/
def allFiniteFields : List (String × Value) → Bool
  | [] => true
  | (_, v) :: rest => allFinite v && allFiniteFields rest

end

mutual

/-- What can be stored holds finite numbers only. -/
theorem allFinite_storable : ∀ v : Value, v.storable.allFinite = true
  | .null | .bool _ | .int _ | .str _ => by simp only [storable, allFinite]
  | .float x => by
    simp only [storable]
    split
    · next h => simpa only [allFinite] using h
    · simp only [allFinite]
  | .list items => by
    simpa only [storable, allFinite] using allFiniteList_storableList items
  | .obj fields => by
    simpa only [storable, allFinite] using allFiniteFields_storableFields fields

/-- `allFinite_storable` for every item. -/
theorem allFiniteList_storableList : ∀ items, allFiniteList (storableList items) = true
  | [] => rfl
  | v :: rest => by
    simp only [storableList, allFiniteList, allFinite_storable v, allFiniteList_storableList rest,
      Bool.and_self]

/-- `allFinite_storable` for every field. -/
theorem allFiniteFields_storableFields :
    ∀ fields, allFiniteFields (storableFields fields) = true
  | [] => rfl
  | (_, v) :: rest => by
    simp only [storableFields, allFiniteFields, allFinite_storable v,
      allFiniteFields_storableFields rest, Bool.and_self]

end

end Value

end TaskAutomation
