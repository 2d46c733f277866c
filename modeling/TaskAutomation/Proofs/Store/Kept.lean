import TaskAutomation.Store.Command

/-!
# What stays in the store

* `Store.lookup_put`, `Store.lookup_erase`, `Store.lookup_keep` : a write concerns one key, all other
  keys keep their slots;
* `Store.slot?_congr`, `Store.find?_congr` : reading a key depends on its slot alone;
* `Command.written c` : the key that a command may write; `Command.lookup_run` : the slots of all
  other keys stay as they are;
* `Store.Keeps s k c` : contents under a key that have no end, emptied contents being absent; these
  are read the same at every instant, and written again without an end;
* `Store.Lasts s k` : whatever is under a key has no end, and what is written there has none
  (`Store.Lasts.keep`, `Store.Lasts.keeps_of_table`);
* `Content.lookup_putCell` : the cells of a table after one is set.
-/

namespace TaskAutomation

namespace Store

/-! ## Writes -/

theorem lookup_filter_ne (slots : List (Key × Slot)) (k l : Key) :
    (slots.filter (·.1 != k)).lookup l = if l = k then none else slots.lookup l := by
  induction slots with
  | nil => simp
  | cons slot rest ih =>
    obtain ⟨key, value⟩ := slot
    by_cases hkey : key = k
    · subst hkey
      rw [List.filter_cons_of_neg (by simp), ih]
      by_cases hl : l = key
      · rw [if_pos hl, if_pos hl]
      · rw [if_neg hl, if_neg hl, List.lookup_cons, beq_false_of_ne hl]
    · rw [List.filter_cons_of_pos (by simpa using hkey), List.lookup_cons, List.lookup_cons, ih]
      by_cases hl : l = key
      · subst hl
        simp [hkey]
      · rw [beq_false_of_ne hl]

theorem lookup_erase (s : Store) (k l : Key) :
    (s.erase k).slots.lookup l = if l = k then none else s.slots.lookup l :=
  lookup_filter_ne s.slots k l

theorem lookup_put (s : Store) (k l : Key) (slot : Slot) :
    (s.put k slot).slots.lookup l = if l = k then some slot else s.slots.lookup l := by
  unfold put
  rw [List.lookup_append, lookup_filter_ne, List.lookup_cons]
  by_cases hl : l = k
  · subst hl
    simp
  · rw [if_neg hl, if_neg hl, beq_false_of_ne hl]
    simp

theorem lookup_keep (s : Store) (now : Int) (k l : Key) (c : Content) :
    (s.keep now k c).slots.lookup l =
      if l = k then (if c.isEmpty then none else some ⟨c, (s.slot? now k).bind Slot.ends⟩)
      else s.slots.lookup l := by
  unfold keep
  by_cases hc : c.isEmpty = true
  · rw [if_pos hc, if_pos hc, lookup_erase]
  · rw [if_neg hc, if_neg hc, lookup_put]

/-! ## Reads -/

variable {s s' : Store} {now : Int} {k : Key}

/-- Reading a key depends on its slot alone. -/
theorem slot?_congr (h : s'.slots.lookup k = s.slots.lookup k) : s'.slot? now k = s.slot? now k := by
  unfold slot?
  rw [h]

theorem find?_congr (h : s'.slots.lookup k = s.slots.lookup k) : s'.find? now k = s.find? now k := by
  unfold find?
  rw [slot?_congr h]

end Store

/-! ## Frames -/

namespace Command

/-- The key that a command may write. -/
def written : Command → Option Key
  | .set k _ | .claim k _ _ | .setIfFree k _ | .expire k _ | .increment k | .delete k
  | .tableSet k _ | .tableIncrement k _ | .setAdd k _ | .setRemove k _ | .orderedPut k _ _
  | .orderedRemove k _ | .push k _ | .trim k _ => some k
  | _ => none

/-- A command leaves the slots of all other keys as they are. -/
theorem lookup_run (now : Int) (c : Command) (s : Store) {l : Key} (h : c.written ≠ some l) :
    (c.run now s).2.slots.lookup l = s.slots.lookup l := by
  have hne : ∀ k, c.written = some k → l ≠ k := fun k hk hl => h (hl ▸ hk)
  cases c with
  | get | has | tableAll | setMembers | setShared | setUnion | orderedBelow | orderedWithin
  | orderedLast | range => rfl
  | set k c => exact (Store.lookup_put s k l _).trans (if_neg (hne k rfl))
  | claim k c seconds =>
    simp only [run]
    split
    · rfl
    · exact (Store.lookup_put s k l _).trans (if_neg (hne k rfl))
  | setIfFree k c =>
    simp only [run]
    split
    · rfl
    · exact (Store.lookup_put s k l _).trans (if_neg (hne k rfl))
  | expire k seconds =>
    simp only [run]
    split
    · exact (Store.lookup_put s k l _).trans (if_neg (hne k rfl))
    · rfl
  | increment k => exact (Store.lookup_keep s now k l _).trans (if_neg (hne k rfl))
  | delete k => exact (Store.lookup_erase s k l).trans (if_neg (hne k rfl))
  | tableSet k cells => exact (Store.lookup_keep s now k l _).trans (if_neg (hne k rfl))
  | tableIncrement k name => exact (Store.lookup_keep s now k l _).trans (if_neg (hne k rfl))
  | setAdd k m =>
    simp only [run]
    split
    · rfl
    · exact (Store.lookup_keep s now k l _).trans (if_neg (hne k rfl))
  | setRemove k m =>
    simp only [run]
    split
    · exact (Store.lookup_keep s now k l _).trans (if_neg (hne k rfl))
    · rfl
  | orderedPut k m score => exact (Store.lookup_keep s now k l _).trans (if_neg (hne k rfl))
  | orderedRemove k m =>
    simp only [run]
    split
    · exact (Store.lookup_keep s now k l _).trans (if_neg (hne k rfl))
    · rfl
  | push k c => exact (Store.lookup_keep s now k l _).trans (if_neg (hne k rfl))
  | trim k last =>
    simp only [run]
    split
    · exact (Store.lookup_keep s now k l _).trans (if_neg (hne k rfl))
    · rfl

/-- A command that writes nothing leaves the store as it is. -/
theorem run_read (now : Int) {c : Command} (s : Store) (h : c.written = none) :
    (c.run now s).2 = s := by
  cases c with
  | get | has | tableAll | setMembers | setShared | setUnion | orderedBelow | orderedWithin
  | orderedLast | range => rfl
  | _ => cases h

end Command

/-! ## Contents without an end -/

namespace Store

/-- The contents are kept under a key without an end; emptied contents are absent. -/
def Keeps (s : Store) (k : Key) (c : Content) : Prop :=
  s.slots.lookup k = if c.isEmpty then none else some ⟨c, none⟩

variable {s : Store} {k : Key} {c : Content}

theorem Keeps.slot? (h : s.Keeps k c) (now : Int) :
    s.slot? now k = if c.isEmpty then none else some ⟨c, none⟩ := by
  unfold Store.slot?
  rw [h]
  split <;> rfl

theorem Keeps.find? (h : s.Keeps k c) (now : Int) :
    s.find? now k = if c.isEmpty then none else some c := by
  unfold Store.find?
  rw [h.slot? now]
  split <;> rfl

theorem Keeps.keep (h : s.Keeps k c) (now : Int) (c' : Content) : (s.keep now k c').Keeps k c' := by
  unfold Keeps
  rw [lookup_keep, if_pos rfl, h.slot? now]
  have hends : (if c.isEmpty then none else some (⟨c, none⟩ : Slot)).bind Slot.ends = none := by
    split <;> rfl
  rw [hends]

theorem Keeps.of_lookup_eq {s' : Store} (h : s.Keeps k c)
    (heq : s'.slots.lookup k = s.slots.lookup k) : s'.Keeps k c := heq.trans h

theorem Keeps.lookup_eq {s' : Store} (h : s.Keeps k c) (h' : s'.Keeps k c) :
    s'.slots.lookup k = s.slots.lookup k := h'.trans h.symm

theorem Keeps.table {cells : List (String × Cell)} (h : s.Keeps k (.table cells)) (now : Int) :
    s.table now k = cells := by
  unfold Store.table
  rw [h.find? now]
  cases cells <;> rfl

theorem Keeps.members {ids : List String} (h : s.Keeps k (.set ids)) (now : Int) :
    s.members now k = ids := by
  unfold Store.members
  rw [h.find? now]
  cases ids <;> rfl

theorem Keeps.cell? {cell : Cell} (h : s.Keeps k (.cell cell)) (now : Int) :
    s.cell? now k = some cell := by
  unfold Store.cell?
  rw [h.find? now]
  rfl

theorem keeps_of_lookup_none (h : s.slots.lookup k = none) (hc : c.isEmpty = true) : s.Keeps k c := by
  unfold Keeps
  rw [h, if_pos hc]

/-- Whatever is under the key has no end. -/
def Lasts (s : Store) (k : Key) : Prop := ∀ slot ∈ s.slots.lookup k, slot.ends = none

theorem Keeps.lasts (h : s.Keeps k c) : s.Lasts k := by
  intro slot hslot
  rw [h] at hslot
  split at hslot
  · cases hslot
  · cases hslot
    rfl

namespace Lasts

theorem slot? (h : s.Lasts k) (now : Int) : s.slot? now k = s.slots.lookup k := by
  unfold Store.slot?
  cases hslot : s.slots.lookup k with
  | none => rfl
  | some slot =>
    have halive : slot.isAlive now = true := by
      unfold Slot.isAlive
      rw [h slot hslot]
    rw [Option.filter_some, if_pos halive]

/-- What is written under the key has no end. -/
theorem keep (h : s.Lasts k) (now : Int) (c : Content) : (s.keep now k c).Keeps k c := by
  unfold Keeps
  rw [lookup_keep, if_pos rfl, h.slot? now]
  cases hslot : s.slots.lookup k with
  | none => rfl
  | some slot => rw [Option.bind_some, h slot hslot]

/-- A table that is found under the key is kept there. -/
theorem keeps_of_table (h : s.Lasts k) {now : Int} (hne : s.table now k ≠ []) :
    s.Keeps k (.table (s.table now k)) := by
  unfold Store.table at hne ⊢
  split at hne
  · next cells hfind =>
    obtain ⟨slot, hslot, hcontent⟩ := Option.map_eq_some_iff.mp hfind
    rw [h.slot? now] at hslot
    have hends := h slot hslot
    obtain ⟨content, ends⟩ := slot
    cases hcontent
    cases hends
    unfold Keeps
    rw [hslot]
    exact (if_neg fun hempty => hne (List.isEmpty_iff.mp hempty)).symm
  · exact absurd rfl hne

end Lasts

end Store

theorem Content.lookup_putCell (name : String) (c : Cell) (cells : List (String × Cell))
    (other : String) :
    (putCell name c cells).lookup other = if other = name then some c else cells.lookup other := by
  induction cells with
  | nil =>
    by_cases h : other = name
    · simp [putCell, h]
    · simp [putCell, List.lookup_cons, beq_false_of_ne h, h]
  | cons cell rest ih =>
    obtain ⟨k, old⟩ := cell
    rw [putCell]
    by_cases hk : k = name
    · subst hk
      rw [if_pos (beq_self_eq_true k), List.lookup_cons, List.lookup_cons]
      by_cases h : other = k
      · simp [h]
      · simp [beq_false_of_ne h, h]
    · rw [if_neg fun heq => hk (eq_of_beq heq), List.lookup_cons, List.lookup_cons, ih]
      by_cases h : other = k
      · subst h
        simp [hk]
      · rw [beq_false_of_ne h]

end TaskAutomation
