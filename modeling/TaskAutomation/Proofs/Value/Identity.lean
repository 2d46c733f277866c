import TaskAutomation.Value.Basic

/-!
# Values are equal or not

* `Value.identical` : the two values are one, doubles bit by bit and fields in order, where
  `Value.same` takes 1 and 1.0 for equal; `Value.identical_iff` : this is equality, so it can be
  decided.
-/

namespace TaskAutomation.Value

mutual

/-- The values are the same in every part. -/
def identical : Value → Value → Bool
  | .null, .null => true
  | .bool a, .bool b => a == b
  | .int m, .int n => m == n
  | .float x, .float y => decide (x = y)
  | .str s, .str t => s == t
  | .list items, .list others => identicalList items others
  | .obj fields, .obj others => identicalFields fields others
  | _, _ => false

/-- `identical` item by item. -/
def identicalList : List Value → List Value → Bool
  | [], [] => true
  | v :: rest, w :: others => identical v w && identicalList rest others
  | _, _ => false

/-- `identical` field by field. -/
def identicalFields : List (String × Value) → List (String × Value) → Bool
  | [], [] => true
  | (k, v) :: rest, (l, w) :: others => k == l && identical v w && identicalFields rest others
  | _, _ => false

end

mutual

theorem identical_iff : ∀ v w : Value, identical v w = true ↔ v = w
  | .null, w => by cases w <;> simp [identical]
  | .bool a, w => by cases w <;> simp [identical]
  | .int m, w => by cases w <;> simp [identical]
  | .float x, w => by cases w <;> simp [identical]
  | .str s, w => by cases w <;> simp [identical]
  | .list items, w => by
    cases w with
    | list others => simp [identical, identicalList_iff items others]
    | _ => simp [identical]
  | .obj fields, w => by
    cases w with
    | obj others => simp [identical, identicalFields_iff fields others]
    | _ => simp [identical]

theorem identicalList_iff : ∀ vs ws, identicalList vs ws = true ↔ vs = ws
  | [], ws => by cases ws <;> simp [identicalList]
  | v :: rest, ws => by
    cases ws with
    | nil => simp [identicalList]
    | cons w others => simp [identicalList, identical_iff v w, identicalList_iff rest others]

theorem identicalFields_iff : ∀ fs gs, identicalFields fs gs = true ↔ fs = gs
  | [], gs => by cases gs <;> simp [identicalFields]
  | (k, v) :: rest, gs => by
    cases gs with
    | nil => simp [identicalFields]
    | cons g others =>
      obtain ⟨l, w⟩ := g
      simp [identicalFields, identical_iff v w, identicalFields_iff rest others]

end

instance : DecidableEq Value := fun v w => decidable_of_iff _ (identical_iff v w)

end TaskAutomation.Value
