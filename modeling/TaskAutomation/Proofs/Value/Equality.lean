import Mathlib.Data.List.Forall2
import Mathlib.Data.List.Perm.Subperm
import TaskAutomation.Proofs.Decimal.Order
import TaskAutomation.Proofs.Path

/-!
# Equal values

* `Value.Equal number` : equality of structure, where `number` says what number a value is;
  `Value.Equal.imp` : how two such equalities follow from another, place by place;
* `Value.rational?`, `Value.worth?`, `Value.place?` : readings of numbers, the first of numbers alone, the
  second of booleans too, the third also of infinities;
* `Value.keyed` : the objects in a value have each key once; `Value.same_iff` : among such values the
  comparison `Value.same` is equality of structure, so it can be turned round and chained
  (`Value.same_comm`, `Value.same_trans`).
-/

namespace TaskAutomation.Value

/-! ## Structure -/

/-- Two values have the same structure: lists item by item, objects key by key in any order, and numbers
where `number` reads the same in both. -/
inductive Equal {α : Type} (number : Value → Option α) : Value → Value → Prop
  | null : Equal number .null .null
  | bool (b : Bool) : Equal number (.bool b) (.bool b)
  | number {v w : Value} {a : α} (hv : number v = some a) (hw : number w = some a) : Equal number v w
  | str (s : String) : Equal number (.str s) (.str s)
  | list {items others : List Value} (hlength : items.length = others.length)
      (h : ∀ (i : Nat) (v w : Value), items[i]? = some v → others[i]? = some w → Equal number v w) :
      Equal number (.list items) (.list others)
  | obj {fields others : Fields}
      (hkeys : ∀ key, key ∈ fields.map Prod.fst ↔ key ∈ others.map Prod.fst)
      (h : ∀ key v w, fields.get? key = some v → others.get? key = some w → Equal number v w) :
      Equal number (.obj fields) (.obj others)

/-- Two values stand at the same place in two lists, or under the same key of two objects. -/
inductive Opposite : Value × Value → Value × Value → Prop
  | item {items others : List Value} {i : Nat} {v w : Value} (hv : items[i]? = some v)
      (hw : others[i]? = some w) : Opposite (.list items, .list others) (v, w)
  | field {fields others : Fields} {key : String} {v w : Value} (hv : fields.get? key = some v)
      (hw : others.get? key = some w) : Opposite (.obj fields, .obj others) (v, w)

/-- What is handed on is handed on at the same places of two values. -/
theorem Inherited.opposite {P : Value → Prop} (hP : Inherited P) {p q : Value × Value}
    (h : Opposite p q) (hp : P p.1 ∧ P p.2) : P q.1 ∧ P q.2 := by
  cases h with
  | item hv hw =>
    exact ⟨hP.item hp.1 (List.mem_of_getElem? hv), hP.item hp.2 (List.mem_of_getElem? hw)⟩
  | field hv hw =>
    exact ⟨hP.field hp.1 (Fields.mem_of_get? hv), hP.field hp.2 (Fields.mem_of_get? hw)⟩

namespace Equal
variable {α β : Type} {number : Value → Option α} {number' : Value → Option β} {v w : Value}

/-- Values of the same structure have it for other numbers as well, if their numbers at the same places
are the same for these. -/
theorem imp {R : Value × Value → Prop} (hR : ∀ {p q}, R p → Opposite p q → R q)
    (hnumber : ∀ v w a, R (v, w) → number v = some a → number w = some a → Equal number' v w)
    (h : Equal number v w) (hvw : R (v, w)) : Equal number' v w := by
  induction h with
  | null => exact .null
  | bool b => exact .bool b
  | number hv hw => exact hnumber _ _ _ hvw hv hw
  | str s => exact .str s
  | list hlength _ ih =>
    exact .list hlength fun i v w hv hw => ih i v w hv hw (hR hvw (.item hv hw))
  | obj hkeys _ ih =>
    exact .obj hkeys fun key v w hv hw => ih key v w hv hw (hR hvw (.field hv hw))

/-- A coarser reading of numbers makes no two values different. -/
theorem mono {f : α → β} (hnumber : ∀ v a, number v = some a → number' v = some (f a))
    (h : Equal number v w) : Equal number' v w :=
  h.imp (R := fun _ => True) (fun _ _ => trivial)
    (fun v w a _ hv hw => .number (hnumber v a hv) (hnumber w a hw)) trivial

theorem symm (h : Equal number v w) : Equal number w v := by
  induction h with
  | null => exact .null
  | bool b => exact .bool b
  | number hv hw => exact .number hw hv
  | str s => exact .str s
  | list hlength _ ih => exact .list hlength.symm fun i v w hv hw => ih i w v hw hv
  | obj hkeys _ ih => exact .obj (fun key => (hkeys key).symm) fun key v w hv hw => ih key w v hw hv

end Equal

/-! ## Numbers -/

/-- The number that a value is, without rounding; booleans and what is not finite are none. -/
def rational? : Value → Option ℚ
  | .int n => some n
  | .float x => (Decimal.Binary.ofFloat x).toRat?
  | _ => none

/-- The number that a value counts as: booleans count as 0 and 1. -/
def worth? : Value → Option ℚ
  | .bool b => some (if b then 1 else 0)
  | v => v.rational?

/-- Where the number that a value counts as stands, infinities among them. -/
def place? (v : Value) : Option (ℤ ×ₗ ℚ) :=
  v.number?.bind fun x => if x = .nan then none else some x.rank

theorem place?_eq_some_iff {v : Value} {r : ℤ ×ₗ ℚ} :
    v.place? = some r ↔ ∃ x, v.number? = some x ∧ x ≠ .nan ∧ x.rank = r := by
  simp [place?, Option.bind_eq_some_iff]

theorem rank_ofInt (n : Int) : (Decimal.Binary.ofInt n).rank = toLex (0, (n : ℚ)) := by
  rw [Decimal.Binary.ofInt, Decimal.Binary.rank, Decimal.signed_natAbs, zpow_zero, mul_one]

theorem place?_of_worth? {v : Value} {q : ℚ} (h : v.worth? = some q) :
    v.place? = some (toLex (0, q)) := by
  rw [place?_eq_some_iff]
  cases v with
  | bool b =>
    cases h
    refine ⟨_, rfl, nofun, (rank_ofInt _).trans ?_⟩
    cases b <;> simp
  | int n =>
    cases h
    exact ⟨_, rfl, nofun, rank_ofInt n⟩
  | float x => exact ⟨_, rfl, Decimal.Binary.rank_of_toRat? h⟩
  | _ => cases h

/-- A finite number counts as one. -/
theorem worth?_of_place? {v : Value} {r : ℤ ×ₗ ℚ} (hfinite : v.allFinite = true)
    (h : v.place? = some r) : ∃ q, v.worth? = some q ∧ r = toLex (0, q) := by
  have hworth : ∃ q, v.worth? = some q := by
    cases v with
    | bool b => exact ⟨_, rfl⟩
    | int n => exact ⟨_, rfl⟩
    | float x =>
      rw [allFinite] at hfinite
      exact Decimal.Binary.exists_toRat? hfinite
    | _ => cases h
  obtain ⟨q, hq⟩ := hworth
  exact ⟨q, hq, Option.some.inj (h.symm.trans (place?_of_worth? hq))⟩

/-! ## The comparison of values -/

mutual

/-- The objects in the value have each key once. -/
def keyed : Value → Bool
  | .list items => keyedList items
  | .obj fields => decide (fields.map Prod.fst).Nodup && keyedFields fields
  | _ => true

/-- `keyed` of every item. -/
def keyedList : List Value → Bool
  | [] => true
  | v :: rest => keyed v && keyedList rest

/-- `keyed` of every field. -/
def keyedFields : List (String × Value) → Bool
  | [] => true
  | (_, v) :: rest => keyed v && keyedFields rest

end

theorem keyedList_iff {items : List Value} :
    keyedList items = true ↔ ∀ v ∈ items, v.keyed = true := by
  induction items with
  | nil => simp [keyedList]
  | cons v rest ih => simp [keyedList, ih]

theorem keyedFields_iff {fields : Fields} :
    keyedFields fields = true ↔ ∀ entry ∈ fields, entry.2.keyed = true := by
  induction fields with
  | nil => simp [keyedFields]
  | cons entry rest ih => simp [keyedFields, ih]

theorem keyed_obj_iff {fields : Fields} : (Value.obj fields).keyed = true ↔
    (fields.map Prod.fst).Nodup ∧ keyedFields fields = true := by
  rw [keyed, Bool.and_eq_true, decide_eq_true_eq]

theorem keyed_inherited : Inherited (·.keyed = true) where
  item h hmem := keyedList_iff.mp h _ hmem
  field h hmem := keyedFields_iff.mp (keyed_obj_iff.mp h).2 _ hmem

theorem sameLeaf_iff {v w : Value} (hlist : ∀ items, v ≠ .list items)
    (hobj : ∀ fields, v ≠ .obj fields) : v.sameLeaf w = true ↔ Equal place? v w := by
  unfold sameLeaf
  constructor
  · intro h
    cases hv : v.number? with
    | some x =>
      cases hw : w.number? with
      | some y =>
        simp only [hv, hw] at h
        obtain ⟨hx, hy, hrank⟩ := Decimal.Binary.eqv_iff.mp h
        exact .number (place?_eq_some_iff.mpr ⟨x, hv, hx, rfl⟩)
          (place?_eq_some_iff.mpr ⟨y, hw, hy, hrank.symm⟩)
      | none => simp [hv, hw] at h
    | none =>
      cases hw : w.number? with
      | some y => simp [hv, hw] at h
      | none =>
        simp only [hv, hw] at h
        split at h
        · exact .null
        · rw [eq_of_beq h]
          exact .str _
        · cases h
  · intro h
    cases h with
    | null => rfl
    | bool b => cases b <;> rfl
    | number hv hw =>
      obtain ⟨x, hx, hxnan, hr⟩ := place?_eq_some_iff.mp hv
      obtain ⟨y, hy, hynan, hr'⟩ := place?_eq_some_iff.mp hw
      simp only [hx, hy]
      exact Decimal.Binary.eqv_iff.mpr ⟨hxnan, hynan, hr.trans hr'.symm⟩
    | str s => exact beq_self_eq_true s
    | list => exact absurd rfl (hlist _)
    | obj => exact absurd rfl (hobj _)

theorem same_leaf_iff {v w : Value} (hlist : ∀ items, v ≠ .list items)
    (hobj : ∀ fields, v ≠ .obj fields) : v.same w = true ↔ Equal place? v w := by
  rw [← sameLeaf_iff hlist hobj]
  cases v with
  | list items => exact absurd rfl (hlist items)
  | obj fields => exact absurd rfl (hobj fields)
  | _ => cases w <;> rfl

theorem equal_list_iff {items others : List Value} :
    Equal place? (.list items) (.list others) ↔ List.Forall₂ (Equal place?) items others := by
  rw [List.forall₂_iff_get]
  constructor
  · intro h
    cases h with
    | number hv _ => cases hv
    | list hlength h =>
      exact ⟨hlength, fun i hv hw => h i _ _ (List.getElem?_eq_getElem hv) (List.getElem?_eq_getElem hw)⟩
  · rintro ⟨hlength, h⟩
    refine .list hlength fun i v w hv hw => ?_
    obtain ⟨hi, rfl⟩ := List.getElem?_eq_some_iff.mp hv
    obtain ⟨hj, rfl⟩ := List.getElem?_eq_some_iff.mp hw
    exact h i hi hj

/-- Objects of as many keys are equal if one has all fields of the other. -/
theorem equal_obj_iff {fields others : Fields} (hfields : (fields.map Prod.fst).Nodup)
    (hothers : (others.map Prod.fst).Nodup) : Equal place? (.obj fields) (.obj others) ↔
      fields.length = others.length ∧
        ∀ entry ∈ fields, ∃ w, others.get? entry.1 = some w ∧ Equal place? entry.2 w := by
  constructor
  · intro h
    cases h with
    | number hv _ => cases hv
    | obj hkeys h =>
      have hperm : (fields.map Prod.fst).Perm (others.map Prod.fst) :=
        (List.perm_ext_iff_of_nodup hfields hothers).mpr hkeys
      refine ⟨by simpa using hperm.length_eq, fun entry hmem => ?_⟩
      obtain ⟨w, hw⟩ := Fields.exists_get? ((hkeys entry.1).mp (List.mem_map_of_mem hmem))
      exact ⟨w, hw, h _ _ _ (Fields.get?_of_mem hfields hmem) hw⟩
  · rintro ⟨hlength, h⟩
    have hsub : fields.map Prod.fst ⊆ others.map Prod.fst := by
      intro key hmem
      obtain ⟨entry, hentry, rfl⟩ := List.mem_map.mp hmem
      obtain ⟨w, hw, -⟩ := h entry hentry
      exact List.mem_map.mpr ⟨_, Fields.mem_of_get? hw, rfl⟩
    have hperm : (fields.map Prod.fst).Perm (others.map Prod.fst) :=
      (hfields.subperm hsub).perm_of_length_le (by simp [hlength])
    refine .obj (fun key => hperm.mem_iff) fun key v w hv hw => ?_
    obtain ⟨w', hw', heq⟩ := h _ (Fields.mem_of_get? hv)
    cases hw.symm.trans hw'
    exact heq

mutual

/-- Values that have each key once are compared by their structure. -/
theorem same_iff : ∀ v w : Value, v.keyed = true → w.keyed = true →
    (v.same w = true ↔ Equal place? v w)
  | .list items, w, hv, hw => by
    cases w with
    | list others =>
      rw [equal_list_iff, same]
      exact sameList_iff items others hv hw
    | _ =>
      refine iff_of_false Bool.false_ne_true fun h => ?_
      cases h with
      | number h _ => cases h
  | .obj fields, w, hv, hw => by
    cases w with
    | obj others =>
      obtain ⟨hfields, hbelow⟩ := keyed_obj_iff.mp hv
      obtain ⟨hothers, hbelow'⟩ := keyed_obj_iff.mp hw
      rw [equal_obj_iff hfields hothers, same, Bool.and_eq_true, beq_iff_eq,
        sameFields_iff fields others hbelow hbelow']
    | _ =>
      refine iff_of_false Bool.false_ne_true fun h => ?_
      cases h with
      | number h _ => cases h
  | .null, w, _, _ | .bool _, w, _, _ | .int _, w, _, _ | .float _, w, _, _ | .str _, w, _, _ =>
    same_leaf_iff (by simp) (by simp)

/-- `same_iff` item by item. -/
theorem sameList_iff : ∀ items others : List Value, keyedList items = true → keyedList others = true →
    (sameList items others = true ↔ List.Forall₂ (Equal place?) items others)
  | [], others, _, _ => by cases others <;> simp [sameList]
  | v :: items, [], _, _ => by simp [sameList]
  | v :: items, w :: others, hv, hw => by
    rw [keyedList, Bool.and_eq_true] at hv hw
    rw [sameList, Bool.and_eq_true, List.forall₂_cons, same_iff v w hv.1 hw.1,
      sameList_iff items others hv.2 hw.2]

/-- `same_iff` field by field. -/
theorem sameFields_iff : ∀ fields others : Fields, keyedFields fields = true →
    keyedFields others = true → (sameFields fields others = true ↔
      ∀ entry ∈ fields, ∃ w, others.get? entry.1 = some w ∧ Equal place? entry.2 w)
  | [], _, _, _ => by simp [sameFields]
  | (key, v) :: fields, others, hv, hw => by
    rw [keyedFields, Bool.and_eq_true] at hv
    rw [sameFields, Bool.and_eq_true, List.forall_mem_cons, sameFields_iff fields others hv.2 hw]
    refine and_congr_left fun _ => ?_
    cases hget : others.get? key with
    | none => simp
    | some w =>
      have hkeyed : w.keyed = true := keyedFields_iff.mp hw _ (Fields.mem_of_get? hget)
      simp [same_iff v w hv.1 hkeyed]

end

theorem Equal.trans {u v w : Value} (h : Equal place? u v) (h' : Equal place? v w) :
    Equal place? u w := by
  induction h generalizing w with
  | null => exact h'
  | bool b => exact h'
  | str s => exact h'
  | number hu hv =>
    cases h' with
    | bool b => exact .number hu hv
    | number hv' hw =>
      cases hv.symm.trans hv'
      exact .number hu hw
    | _ => cases hv
  | @list items others hlength _ ih =>
    cases h' with
    | number hv _ => cases hv
    | list hlength' h' =>
      refine .list (hlength.trans hlength') fun i u w hu hw => ?_
      obtain ⟨hi, -⟩ := List.getElem?_eq_some_iff.mp hu
      have hv : others[i]? = some others[i] := List.getElem?_eq_getElem (hlength ▸ hi)
      exact ih i _ _ hu hv (h' i _ _ hv hw)
  | @obj fields others hkeys _ ih =>
    cases h' with
    | number hv _ => cases hv
    | obj hkeys' h' =>
      refine .obj (fun key => (hkeys key).trans (hkeys' key)) fun key u w hu hw => ?_
      have hkey : key ∈ fields.map Prod.fst := List.mem_map.mpr ⟨_, Fields.mem_of_get? hu, rfl⟩
      obtain ⟨v, hv⟩ := Fields.exists_get? ((hkeys key).mp hkey)
      exact ih key _ _ hu hv (h' key _ _ hv hw)

section Comparison
variable {u v w : Value} (hu : u.keyed = true) (hv : v.keyed = true) (hw : w.keyed = true)
include hv hw

theorem same_comm : v.same w = w.same v := by
  rw [Bool.eq_iff_iff, same_iff v w hv hw, same_iff w v hw hv]
  exact ⟨Equal.symm, Equal.symm⟩

include hu

theorem same_trans (h : u.same v = true) (h' : v.same w = true) : u.same w = true := by
  rw [same_iff _ _ hu hv] at h
  rw [same_iff _ _ hv hw] at h'
  exact (same_iff _ _ hu hw).mpr (h.trans h')

end Comparison

end TaskAutomation.Value
