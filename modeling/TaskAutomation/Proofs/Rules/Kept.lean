import TaskAutomation.Proofs.Program.Frame
import TaskAutomation.Proofs.Rules.Edits
import TaskAutomation.Proofs.Rules.Effects
import TaskAutomation.Proofs.Rules.RoundTrip

/-!
# Stored rules are all in their documents

* `Rule.storable_stored` : what is read of the document of a rule can be stored again as it is;
* `Rules.Settled s m` : the store holds the rules of `m` and their indexes, and all of each rule is in its
  document; `Settled.edit` : it stays so, through every edit;
* `Rules.Used w` : the world comes from an empty store by edits of rules and by other programs;
  `Used.settled` : its store is settled.
-/

namespace TaskAutomation

open Check Program

/-- A rule that was read back from its document is all in it. -/
theorem Rule.storable_stored {r : Rule} (hcreated : r.createdAt.Shown) (hupdated : r.updatedAt.Shown) :
    (Rules.stored r).Storable where
  conditions := Value.allFiniteFields_storableFields r.conditions
  parameters := by
    intro a ha
    obtain ⟨b, -, rfl⟩ := List.mem_map.mp ha
    exact Value.allFiniteFields_storableFields b.parameters
  createdAt := hcreated.stamped_toMinute
  updatedAt := hupdated.stamped_toMinute

namespace Rules

variable {s s' : Store} {w : World} {m : String → Option Rule}

theorem Indexed.of_lookup_eq (h : Indexed s m)
    (heq : ∀ k, IsRecord k → s'.slots.lookup k = s.slots.lookup k) : Indexed s' m := by
  obtain ⟨rows, hholds, hrows⟩ := h
  refine ⟨rows, ⟨fun id => (hholds.row id).of_lookup_eq (heq _ trivial), fun k hk => ?_⟩, hrows⟩
  obtain ⟨ids, hkeeps, hmem⟩ := hholds.index k hk
  exact ⟨ids, hkeeps.of_lookup_eq (heq k (by cases k <;> trivial)), hmem⟩

/-- An index has the ids of the rules that are listed there, and no others. -/
theorem Indexed.mem_members (h : Indexed s m) {k : Key} (hk : isIndex k = true) (now : Int)
    (id : String) : id ∈ s.members now k ↔ ∃ r, m id = some r ∧ k ∈ indexKeys r := by
  obtain ⟨rows, hholds, -⟩ := h
  obtain ⟨ids, hkeeps, -, hmem⟩ := hholds.index k hk
  rw [hkeeps.members, hmem]

/-- The id of a stored rule is in the index of its trigger, and in that of no other. -/
theorem Indexed.mem_trigger (h : Indexed s m) {id : String} {r : Rule} (hm : m id = some r) (now : Int)
    (trigger : String) : id ∈ s.members now (.ruleTrigger trigger) ↔ trigger = r.trigger.name := by
  rw [h.mem_members rfl, hm]
  simp [indexKeys]

/-- The store holds the rules of a map and their indexes, and all of each rule is in its document. -/
structure Settled (s : Store) (m : String → Option Rule) : Prop where
  indexed : Indexed s m
  storable : ∀ id r, m id = some r → r.Storable

theorem Edit.storable_applied {now : Moment} (hnow : now.Shown) {e : Edit} (he : e.Allowed w)
    (h : ∀ id r, m id = some r → r.Storable) {id : String} {r : Rule}
    (hr : e.applied now m id = some r) : r.Storable := by
  have hput : ∀ {i : String} {q : Option Rule}, (∀ r, q = some r → r.Storable) →
      Function.update m i q id = some r → r.Storable := by
    intro i q hq hid
    rw [Function.update_apply] at hid
    split at hid
    · exact hq r hid
    · exact h id r hid
  cases e with
  | create rule =>
    refine hput ?_ hr
    rintro _ ⟨⟩
    exact Rule.storable_stored he.1.createdAt he.1.updatedAt
  | update i rule =>
    refine hput (fun r hr => ?_) hr
    obtain ⟨old, hold, rfl⟩ := Option.map_eq_some_iff.mp hr
    exact Rule.storable_stored (h i old hold).createdAt.toShown hnow
  | setActive i isActive =>
    refine hput (fun r hr => ?_) hr
    obtain ⟨old, hold, rfl⟩ := Option.map_eq_some_iff.mp hr
    exact Rule.storable_stored (h i old hold).createdAt.toShown hnow
  | delete i =>
    refine hput (q := none) ?_ hr
    rintro _ ⟨⟩
  | countRun i ranAt =>
    refine hput (fun r hr => ?_) hr
    obtain ⟨old, hold, rfl⟩ := Option.map_eq_some_iff.mp hr
    exact { h i old hold with }
  | recordRun settings run => exact h id r hr

theorem Settled.edit (h : Settled w.store m) (ho : w.outages = []) (hc : w.clock.Shown) {e : Edit}
    (he : e.Allowed w) : Settled (e.program.run w).2.store (e.applied w.clock m) where
  indexed := edit_indexed h.indexed ho hc he
  storable _ _ := Edit.storable_applied hc he h.storable

/-- The worlds that edits of rules lead to from an empty store. Between them time may pass, and programs
may run that leave rules and their indexes alone. -/
inductive Used : World → Prop where
  | start {w : World} (hstore : w.store.slots = []) (hclock : w.clock.Stamped)
      (houtages : w.outages = []) : Used w
  | edit {w : World} (h : Used w) (e : Edit) (he : e.Allowed w) : Used (e.program.run w).2
  | other {w : World} (h : Used w) {α : Type} (p : Program α)
      (hp : p.Within (Call.Touches fun k => ¬ IsRecord k)) : Used (p.run w).2
  | pass {w w' : World} (h : Used w) (hstore : w'.store = w.store) (hclock : w'.clock.Stamped)
      (houtages : w'.outages = []) : Used w'

theorem Used.settled (h : Used w) :
    (∃ m, Settled w.store m) ∧ w.clock.Stamped ∧ w.outages = [] := by
  induction h with
  | start hstore hclock houtages =>
    refine ⟨⟨_, indexed_of_empty hstore, ?_⟩, hclock, houtages⟩
    rintro _ _ ⟨⟩
  | edit h e he ih =>
    obtain ⟨⟨m, hm⟩, hclock, houtages⟩ := ih
    refine ⟨⟨_, hm.edit houtages hclock.toShown he⟩, ?_, ?_⟩
    · rwa [run_clock]
    · rwa [run_outages]
  | other h p hp ih =>
    obtain ⟨⟨m, hm⟩, hclock, houtages⟩ := ih
    refine ⟨⟨m, hm.indexed.of_lookup_eq fun k hk => ?_, hm.storable⟩, ?_, ?_⟩
    · exact hp.lookup_run (not_not.mpr hk) _
    · rwa [run_clock]
    · rwa [run_outages]
  | pass h hstore hclock houtages ih =>
    obtain ⟨⟨m, hm⟩, -, -⟩ := ih
    exact ⟨⟨m, hstore ▸ hm⟩, hclock, houtages⟩

/-- A stored rule is one of those of a settled store, and is read without a change. -/
theorem Used.settled_of_stored (h : Used w) {r : Rule} (hr : Stored w r) :
    ∃ m, Settled w.store m ∧ m r.id = some r ∧ (get r.id).run w = (.ok (some r), w) := by
  obtain ⟨⟨m, hm⟩, -, ho⟩ := h.settled
  have hstored := (stored_iff hm.indexed ho r).mp hr
  have hget := run_get hm.indexed ho r.id
  rw [hstored] at hget
  exact ⟨m, hm, hstored, hget⟩

end Rules

end TaskAutomation
