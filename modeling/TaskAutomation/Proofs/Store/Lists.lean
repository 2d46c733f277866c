import TaskAutomation.Proofs.Program.Run
import TaskAutomation.Store.Rules

/-!
# Lists that are cut

A cell is put in front of a list, and the list is cut to its newest cells.

* `Store.find?_keep`, `Store.list_keep` : what is written is found at the same instant;
* `Rules.list_pushBounded` : the newest cells with one more in front;
  `Rules.keeps_pushBounded` : so for a list that is kept without an end;
  `Rules.lookup_pushBounded` : all other keys keep their slots;
* `Program.run_checked`, `Program.run_range` : a list whose cells were made from items, each of which is read
  from its cell, is read as these items.
-/

namespace TaskAutomation

namespace Content

variable {α : Type}

theorem through_pred {n : Int} (h : 0 < n) (items : List α) : through (n - 1) items = items.take n.toNat := by
  unfold through
  rw [if_pos (by omega), Int.sub_add_cancel]

theorem through_all (items : List α) : through (-1) items = items := by
  unfold through
  rw [if_neg (by omega)]
  exact List.take_of_length_le (by omega)

theorem through_map {β : Type} (f : α → β) (last : Int) (items : List α) :
    through last (items.map f) = (through last items).map f := by
  unfold through
  rw [List.length_map]
  split <;> exact List.map_take.symm

theorem mem_of_through {last : Int} {items : List α} {a : α} (h : a ∈ through last items) : a ∈ items := by
  unfold through at h
  split at h <;> exact List.mem_of_mem_take h

/-- Cutting a list that was cut before, with one more in front, is cutting all of it. -/
theorem take_cons_take (a : α) (items : List α) (n : Nat) :
    (a :: items.take n).take n = (a :: items).take n := by
  cases n with
  | zero => rfl
  | succ n => rw [List.take_succ_cons, List.take_succ_cons, List.take_take, Nat.min_eq_left (Nat.le_succ n)]

end Content

namespace Store

variable {s : Store} {now : Int} {k : Key}

/-- What is there at an instant does not end before it. -/
theorem isAlive_ends (s : Store) (now : Int) (k : Key) (c : Content) :
    Slot.isAlive now ⟨c, (s.slot? now k).bind Slot.ends⟩ = true := by
  cases hslot : s.slot? now k with
  | none => rfl
  | some slot => exact (Option.filter_eq_some_iff.mp hslot).2

/-- What is written is found at the same instant. -/
theorem find?_keep (s : Store) (now : Int) (k : Key) (c : Content) :
    (s.keep now k c).find? now k = if c.isEmpty then none else some c := by
  unfold find? slot?
  rw [lookup_keep, if_pos rfl]
  split
  · rfl
  · rw [Option.filter_some_pos (isAlive_ends s now k c)]
    rfl

theorem list_keep (s : Store) (now : Int) (k : Key) (cells : List Cell) :
    (s.keep now k (.list cells)).list now k = cells := by
  unfold list
  rw [find?_keep]
  cases cells <;> rfl

theorem list_congr {s' : Store} (h : s'.slots.lookup k = s.slots.lookup k) :
    s'.list now k = s.list now k := by
  unfold list
  rw [find?_congr h]

theorem cell?_congr {s' : Store} (h : s'.slots.lookup k = s.slots.lookup k) :
    s'.cell? now k = s.cell? now k := by
  unfold cell?
  rw [find?_congr h]

theorem Keeps.list {cells : List Cell} (h : s.Keeps k (.list cells)) (now : Int) :
    s.list now k = cells := by
  unfold Store.list
  rw [h.find? now]
  cases cells <;> rfl

end Store

namespace Rules

open Program

variable {w : World} {k : Key} {c : Cell} {n : Int}

/-- The list is put together from what it was, and cut. -/
theorem store_pushBounded (hn : 0 < n) :
    ((pushBounded k c n).run w).2.store =
      (w.store.keep w.clock.instant k (.list (c :: w.store.list w.clock.instant k))).keep
        w.clock.instant k (.list ((c :: w.store.list w.clock.instant k).take n.toNat)) := by
  have hfound : (w.after (.push k c)).store.find? w.clock.instant k =
      some (.list (c :: w.store.list w.clock.instant k)) := Store.find?_keep _ _ _ _
  show ((Command.trim k (n - 1)).run w.clock.instant (w.after (.push k c)).store).2 = _
  simp only [Command.run, hfound, Content.through_pred hn]
  rfl

/-- The newest cells of a list are those there were, with one more in front. -/
theorem list_pushBounded (hn : 0 < n) :
    ((pushBounded k c n).run w).2.store.list w.clock.instant k =
      (c :: w.store.list w.clock.instant k).take n.toNat := by
  rw [store_pushBounded hn, Store.list_keep]

/-- All other keys keep their slots. -/
theorem lookup_pushBounded {l : Key} (h : l ≠ k) :
    ((pushBounded k c n).run w).2.store.slots.lookup l = w.store.slots.lookup l := by
  have hne : some k ≠ some l := fun heq => h (Option.some.inj heq).symm
  have hpush := w.lookup_after (c := .push k c) (k := l) hne
  have htrim := (w.after (.push k c)).lookup_after (c := .trim k (n - 1)) (k := l) hne
  exact htrim.trans hpush

/-- A list that is kept without an end stays so. -/
theorem keeps_pushBounded {cells : List Cell} (hn : 0 < n) (h : w.store.Keeps k (.list cells)) :
    ((pushBounded k c n).run w).2.store.Keeps k (.list ((c :: cells).take n.toNat)) := by
  rw [store_pushBounded hn, h.list]
  exact (h.keep _ _).keep _ _

end Rules

namespace Program

/-- A value that passes a check at any time is read as what it is checked to be. -/
theorem run_checked {α : Type} {name : String} {check : Check.Checker α} {v : Value} {a : α}
    (h : ∀ s, check s v = .ok a) (w : World) :
    (do ofChecked name (check (← setting) v) : Program α).run w = (.ok a, w) := by
  rw [run_bind_ok (run_setting w)]
  exact run_ofChecked (h _) w

/-- A list whose cells were made from items is read as these items, up to an index. -/
theorem run_range {α : Type} {w : World} {k : Key} {make : α → Cell} {items : List α}
    {f : Cell → Program α} (hkeeps : w.store.Keeps k (.list (items.map make)))
    (hf : ∀ a ∈ items, (f (make a)).run w = (.ok a, w)) (last : Int) :
    (do
      let cells : List Cell ← store (.range k last)
      each f cells : Program (List α)).run w = (.ok (Content.through last items), w) := by
  have hcells : ((Command.range k last).run w.clock.instant w.store).1 =
      (Content.through last items).map make := by
    show Content.through last (w.store.list w.clock.instant k) = _
    rw [hkeeps.list, Content.through_map]
  rw [run_bind_ok (run_read rfl w), hcells]
  exact run_each_map fun a ha => hf a (Content.mem_of_through ha)

end Program

end TaskAutomation
