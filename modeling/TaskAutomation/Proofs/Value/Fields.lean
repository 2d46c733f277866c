import TaskAutomation.Value.Basic

/-!
# Fields of objects

* `Fields.get?_put_self`, `Fields.get?_put_ne` : the field that was set has its value, the others
  keep theirs;
* `Fields.put_put` : a field that is set twice has its last value;
* `Fields.get?_eq_some_iff` : of fields that are there once, what is found is what is there, so
  `Fields.get?_perm` : it does not depend on their order;
* `Fields.get?_ofList` : of fields that are written one after another the last of a name counts.
-/

namespace TaskAutomation.Fields

variable (fields : Fields) {key key' : String} (v v' : Value)

@[simp] theorem get?_nil (key : String) : get? [] key = none := rfl

theorem get?_cons (k : String) :
    get? ((k, v) :: fields) key = if key = k then some v else get? fields key := by
  unfold get?
  rw [List.lookup_cons]
  split
  · next h => rw [if_pos (eq_of_beq h)]
  · next h => rw [if_neg fun heq => by simp [heq] at h]

theorem get?_put_self : (put fields key v).get? key = some v := by
  induction fields with
  | nil => rw [put, get?_cons, if_pos rfl]
  | cons field rest ih =>
    obtain ⟨k, old⟩ := field
    rw [put]
    split
    · next h => rw [get?_cons, if_pos (eq_of_beq h).symm]
    · next h => rw [get?_cons, if_neg fun heq => h (beq_iff_eq.mpr heq.symm), ih]

theorem get?_put_ne (h : key' ≠ key) : (put fields key v).get? key' = get? fields key' := by
  induction fields with
  | nil => rw [put, get?_cons, if_neg h]
  | cons field rest ih =>
    obtain ⟨k, old⟩ := field
    rw [put]
    split
    · next hk =>
      have hne : key' ≠ k := fun heq => h (heq.trans (eq_of_beq hk))
      rw [get?_cons, get?_cons, if_neg hne, if_neg hne]
    · rw [get?_cons, get?_cons, ih]

theorem put_put : put (put fields key v) key v' = put fields key v' := by
  induction fields with
  | nil => simp only [put, beq_self_eq_true, if_true]
  | cons field rest ih =>
    obtain ⟨k, old⟩ := field
    rw [put, put]
    by_cases h : (k == key) = true
    · rw [if_pos h, if_pos h, put, if_pos h]
    · rw [if_neg h, if_neg h, put, if_neg h, ih]

variable {fields v}

theorem mem_of_get? (h : get? fields key = some v) : (key, v) ∈ fields := by
  obtain ⟨before, after, hsplit, -⟩ := List.lookup_eq_some_iff.mp h
  simp [hsplit]

theorem exists_get? (h : key ∈ fields.map Prod.fst) : ∃ v, get? fields key = some v := by
  induction fields with
  | nil => cases h
  | cons field rest ih =>
    obtain ⟨k, w⟩ := field
    rw [get?_cons]
    split
    · exact ⟨w, rfl⟩
    · next hne => exact ih ((List.mem_cons.mp h).resolve_left hne)

theorem get?_of_mem (honce : (fields.map Prod.fst).Nodup) (h : (key, v) ∈ fields) :
    get? fields key = some v := by
  induction fields with
  | nil => cases h
  | cons field rest ih =>
    obtain ⟨k, w⟩ := field
    rw [List.map_cons, List.nodup_cons] at honce
    rw [get?_cons]
    rcases List.mem_cons.mp h with heq | hrest
    · cases heq
      rw [if_pos rfl]
    · have hne : key ≠ k := by
        rintro rfl
        exact honce.1 (List.mem_map.mpr ⟨_, hrest, rfl⟩)
      rw [if_neg hne, ih honce.2 hrest]

theorem get?_eq_some_iff (honce : (fields.map Prod.fst).Nodup) :
    get? fields key = some v ↔ (key, v) ∈ fields :=
  ⟨mem_of_get?, get?_of_mem honce⟩

/-- The order of fields that are there once does not matter. -/
theorem get?_perm {others : Fields} (honce : (fields.map Prod.fst).Nodup) (h : fields.Perm others)
    (key : String) : get? fields key = get? others key := by
  have honce' : (others.map Prod.fst).Nodup := (h.map Prod.fst).nodup_iff.mp honce
  ext v
  rw [get?_eq_some_iff honce, get?_eq_some_iff honce', h.mem_iff]

theorem get?_merge (fields more : Fields) (key : String) :
    get? (merge fields more) key = (get? more.reverse key).or (get? fields key) := by
  induction more generalizing fields with
  | nil => rfl
  | cons field rest ih =>
    obtain ⟨k, v⟩ := field
    have hlast : get? (rest.reverse ++ [(k, v)]) key =
        (get? rest.reverse key).or (if key = k then some v else none) := by
      unfold get?
      rw [List.lookup_append]
      exact congrArg _ (get?_cons [] v k)
    rw [List.reverse_cons, hlast, Option.or_assoc]
    refine (ih (put fields k v)).trans (congrArg _ ?_)
    by_cases hkey : key = k
    · rw [hkey, get?_put_self, if_pos rfl, Option.some_or]
    · rw [get?_put_ne fields v hkey, if_neg hkey, Option.none_or]

/-- Of several values of a name the last counts. -/
theorem get?_ofList (fields : Fields) (key : String) :
    get? (ofList fields) key = get? fields.reverse key := by
  rw [ofList, get?_merge]
  exact Option.or_none

end TaskAutomation.Fields
