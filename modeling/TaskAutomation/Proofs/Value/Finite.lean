import TaskAutomation.Proofs.Path

/-!
# Values of finite numbers

* `Value.allFinite_inherited` : what is in a value of finite numbers is one too;
* `Value.storable_of_allFinite` : a value of finite numbers is stored as it is, and so are the fields
  of an object (`Value.storableFields_of_allFinite`), and no others (`Value.storableFields_eq_iff`);
* `Value.storableFields_storableFields` : what can be stored is stored as it is;
* `Value.get?_storableFields`, `Value.storableList_eq_map` : fields and items are stored one by one.
-/

namespace TaskAutomation.Value

@[simp] theorem storable_str (s : String) : storable (.str s) = .str s := by
  simp only [storable]

@[simp] theorem storable_ofText? (t? : Option String) : storable (.ofText? t?) = .ofText? t? := by
  cases t? <;> simp only [ofText?, storable]

theorem allFiniteList_iff {items : List Value} :
    allFiniteList items = true ↔ ∀ v ∈ items, v.allFinite = true := by
  induction items with
  | nil => simp [allFiniteList]
  | cons v rest ih => simp [allFiniteList, ih]

theorem allFiniteFields_iff {fields : Fields} :
    allFiniteFields fields = true ↔ ∀ entry ∈ fields, entry.2.allFinite = true := by
  induction fields with
  | nil => simp [allFiniteFields]
  | cons entry rest ih => simp [allFiniteFields, ih]

theorem allFinite_inherited : Inherited (·.allFinite = true) where
  item h hmem := by
    rw [allFinite] at h
    exact allFiniteList_iff.mp h _ hmem
  field h hmem := by
    rw [allFinite] at h
    exact allFiniteFields_iff.mp h _ hmem

mutual

/-- A value of finite numbers is stored as it is. -/
theorem storable_of_allFinite : ∀ v : Value, v.allFinite = true → v.storable = v
  | .null, _ | .bool _, _ | .int _, _ | .str _, _ => by simp only [storable]
  | .float x, h => by
    rw [allFinite] at h
    rw [storable, if_pos h]
  | .list items, h => by
    rw [allFinite] at h
    rw [storable, storableList_of_allFinite items h]
  | .obj fields, h => by
    rw [allFinite] at h
    rw [storable, storableFields_of_allFinite fields h]

/-- `storable_of_allFinite` for items. -/
theorem storableList_of_allFinite :
    ∀ items : List Value, allFiniteList items = true → storableList items = items
  | [], _ => rfl
  | v :: rest, h => by
    rw [allFiniteList, Bool.and_eq_true] at h
    rw [storableList, storable_of_allFinite v h.1, storableList_of_allFinite rest h.2]

/-- `storable_of_allFinite` for fields. -/
theorem storableFields_of_allFinite :
    ∀ fields : List (String × Value), allFiniteFields fields = true → storableFields fields = fields
  | [], _ => rfl
  | (k, v) :: rest, h => by
    rw [allFiniteFields, Bool.and_eq_true] at h
    rw [storableFields, storable_of_allFinite v h.1, storableFields_of_allFinite rest h.2]

end

/-- Fields are stored as they are just when all of their numbers are finite. -/
theorem storableFields_eq_iff {fields : Fields} :
    storableFields fields = fields ↔ allFiniteFields fields = true := by
  refine ⟨fun h => ?_, storableFields_of_allFinite fields⟩
  rw [← h]
  exact allFiniteFields_storableFields fields

/-- What can be stored is stored as it is. -/
theorem storableFields_storableFields (fields : Fields) :
    storableFields (storableFields fields) = storableFields fields :=
  storableFields_of_allFinite _ (allFiniteFields_storableFields fields)

theorem storableFields_append (fields more : Fields) :
    storableFields (fields ++ more) = storableFields fields ++ storableFields more := by
  induction fields with
  | nil => rfl
  | cons field rest ih =>
    rw [List.cons_append, storableFields, ih]
    rfl

theorem get?_storableFields (fields : Fields) (key : String) :
    Fields.get? (storableFields fields) key = (Fields.get? fields key).map storable := by
  induction fields with
  | nil => rfl
  | cons field rest ih =>
    obtain ⟨k, v⟩ := field
    rw [storableFields, Fields.get?_cons, Fields.get?_cons, ih]
    split <;> rfl

theorem storableList_eq_map (vs : List Value) : storableList vs = vs.map storable := by
  induction vs with
  | nil => rfl
  | cons v rest ih => rw [storableList, List.map_cons, ih]

theorem storableList_map {α : Type} (f : α → Value) (items : List α) :
    storableList (items.map f) = items.map fun a => (f a).storable := by
  rw [storableList_eq_map, List.map_map]
  rfl

end TaskAutomation.Value
