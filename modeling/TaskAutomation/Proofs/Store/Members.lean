import Mathlib.Data.List.Nodup
import Mathlib.Data.List.Sort
import Mathlib.Data.String.Basic
import TaskAutomation.Proofs.Decimal.Order
import TaskAutomation.Proofs.Store.Kept

/-!
# Sets and ordered sets

* `Store.SetsOnce` : no set repeats a member, which every command preserves (`SetsOnce.run`);
* `Store.Collects s k p` : the set under a key has just the members that are so and so, and no end;
  `Collects.setAdd`, `Collects.setRemove` : one member more or less;
* `Scored.place` : where a member of an ordered set stands; `Scored.before_iff` : one member comes
  before another just when it stands lower;
* `Scored.InOrder` : members with scores that are numbers, in order, each once; `InOrder.put` and
  `InOrder.filter` : they stay so; `InOrder.ext` : their order is a matter of what they are;
* `Store.Keeps.orderedPut`, `Store.Keeps.orderedRemove` : ordered sets without an end stay so.
-/

namespace TaskAutomation

/-! ## Sets -/

namespace Store

/-- No set repeats a member. -/
def SetsOnce (s : Store) : Prop :=
  ∀ k slot ids, s.slots.lookup k = some slot → slot.content = .set ids → ids.Nodup

variable {s : Store}

theorem setsOnce_of_empty (h : s.slots = []) : s.SetsOnce := by
  intro k slot ids hlookup
  rw [h] at hlookup
  cases hlookup

namespace SetsOnce

theorem erase (h : s.SetsOnce) (k : Key) : (s.erase k).SetsOnce := by
  intro l slot ids hl
  rw [lookup_erase] at hl
  split at hl
  · cases hl
  · exact h l slot ids hl

theorem put (h : s.SetsOnce) {k : Key} {slot : Slot}
    (hslot : ∀ ids, slot.content = .set ids → ids.Nodup) : (s.put k slot).SetsOnce := by
  intro l slot' ids hl
  rw [lookup_put] at hl
  split at hl
  · cases hl
    exact hslot ids
  · exact h l slot' ids hl

theorem keep (h : s.SetsOnce) (now : Int) {k : Key} {c : Content}
    (hc : ∀ ids, c = .set ids → ids.Nodup) : (s.keep now k c).SetsOnce := by
  unfold Store.keep
  split
  · exact h.erase k
  · exact h.put hc

theorem of_find? (h : s.SetsOnce) {now : Int} {k : Key} {ids : List String}
    (hfind : s.find? now k = some (.set ids)) : ids.Nodup := by
  obtain ⟨slot, hslot, hset⟩ := Option.map_eq_some_iff.mp hfind
  exact h k slot ids (Option.eq_some_of_filter_eq_some hslot) hset

theorem members (h : s.SetsOnce) (now : Int) (k : Key) : (s.members now k).Nodup := by
  unfold Store.members
  split
  · next hfind => exact h.of_find? hfind
  · exact List.nodup_nil

/-- A command leaves no set that repeats a member. -/
theorem run (h : s.SetsOnce) (now : Int) (c : Command) : (c.run now s).2.SetsOnce := by
  cases c with
  | get | has | tableAll | setMembers | setShared | setUnion | orderedBelow | orderedWithin
  | orderedLast | range => exact h
  | set k c => exact h.put fun _ => Content.noConfusion
  | claim k c seconds =>
    simp only [Command.run]
    split
    · exact h
    · exact h.put fun _ => Content.noConfusion
  | setIfFree k c =>
    simp only [Command.run]
    split
    · exact h
    · exact h.put fun _ => Content.noConfusion
  | expire k seconds =>
    simp only [Command.run]
    split
    · next c hfind =>
      refine h.put fun ids hset => ?_
      have hset : c = .set ids := hset
      rw [hset] at hfind
      exact h.of_find? hfind
    · exact h
  | increment k => exact h.keep now fun _ => Content.noConfusion
  | delete k => exact h.erase k
  | tableSet k cells => exact h.keep now fun _ => Content.noConfusion
  | tableIncrement k name => exact h.keep now fun _ => Content.noConfusion
  | setAdd k m =>
    simp only [Command.run]
    split
    · exact h
    · next hnew =>
      refine h.keep now fun ids hset => ?_
      cases hset
      rw [← List.concat_eq_append]
      exact (h.members now k).concat fun hm => hnew (List.contains_iff_mem.mpr hm)
  | setRemove k m =>
    simp only [Command.run]
    split
    · refine h.keep now fun ids hset => ?_
      cases hset
      exact (h.members now k).filter _
    · exact h
  | orderedPut k m score => exact h.keep now fun _ => Content.noConfusion
  | orderedRemove k m =>
    simp only [Command.run]
    split
    · exact h.keep now fun _ => Content.noConfusion
    · exact h
  | push k c => exact h.keep now fun _ => Content.noConfusion
  | trim k last =>
    simp only [Command.run]
    split
    · exact h.keep now fun _ => Content.noConfusion
    · exact h

end SetsOnce

/-- The set under a key, which has no end, has just the members of which `p` holds, each once. -/
def Collects (s : Store) (k : Key) (p : String → Prop) : Prop :=
  ∃ ids, s.Keeps k (.set ids) ∧ ids.Nodup ∧ ∀ id, id ∈ ids ↔ p id

namespace Collects

variable {k : Key} {p : String → Prop}

theorem of_lookup_eq {s' : Store} (h : s.Collects k p)
    (heq : s'.slots.lookup k = s.slots.lookup k) : s'.Collects k p := by
  obtain ⟨ids, hkeeps, hmem⟩ := h
  exact ⟨ids, hkeeps.of_lookup_eq heq, hmem⟩

theorem congr {q : String → Prop} (h : s.Collects k p) (hpq : ∀ id, p id ↔ q id) :
    s.Collects k q := by
  obtain ⟨ids, hkeeps, hnodup, hmem⟩ := h
  exact ⟨ids, hkeeps, hnodup, fun id => (hmem id).trans (hpq id)⟩

theorem mem_members (h : s.Collects k p) (now : Int) {id : String} : id ∈ s.members now k ↔ p id := by
  obtain ⟨ids, hkeeps, -, hmem⟩ := h
  rw [hkeeps.members now, hmem]

theorem setAdd (h : s.Collects k p) (now : Int) (m : String) :
    ((Command.setAdd k m).run now s).2.Collects k fun id => p id ∨ id = m := by
  obtain ⟨ids, hkeeps, hnodup, hmem⟩ := h
  simp only [Command.run, hkeeps.members now]
  split
  · next hm =>
    refine ⟨ids, hkeeps, hnodup, fun id => (hmem id).trans ⟨.inl, ?_⟩⟩
    rintro (hp | rfl)
    · exact hp
    · exact (hmem id).mp (List.contains_iff_mem.mp hm)
  · next hnew =>
    refine ⟨ids ++ [m], hkeeps.keep now _, ?_, fun id => ?_⟩
    · rw [← List.concat_eq_append]
      exact hnodup.concat fun hm => hnew (List.contains_iff_mem.mpr hm)
    · rw [List.mem_append, List.mem_singleton, hmem]

theorem setRemove (h : s.Collects k p) (now : Int) (m : String) :
    ((Command.setRemove k m).run now s).2.Collects k fun id => p id ∧ id ≠ m := by
  obtain ⟨ids, hkeeps, hnodup, hmem⟩ := h
  simp only [Command.run, hkeeps.members now]
  split
  · refine ⟨ids.filter (· != m), hkeeps.keep now _, hnodup.filter _, fun id => ?_⟩
    rw [List.mem_filter, bne_iff_ne, hmem]
  · next hm =>
    refine ⟨ids, hkeeps, hnodup, fun id => (hmem id).trans ⟨fun hp => ⟨hp, ?_⟩, And.left⟩⟩
    rintro rfl
    exact hm (List.contains_iff_mem.mpr ((hmem id).mpr hp))

end Collects

end Store

/-! ## Ordered sets -/

namespace Scored

open Decimal

/-- The score is a number. -/
def IsNumber (x : Float) : Prop := Binary.ofFloat x ≠ .nan

theorem scoreBefore_iff {x y : Float} (hx : IsNumber x) (hy : IsNumber y) :
    scoreBefore x y = true ↔ (Binary.ofFloat x).rank < (Binary.ofFloat y).rank := by
  unfold scoreBefore
  rw [beq_iff_eq]
  exact Binary.cmp?_lt_iff hx hy

/-- Where a member stands: by its score, then by itself. -/
def place (a : Scored) : (ℤ ×ₗ ℚ) ×ₗ String := toLex ((Binary.ofFloat a.score).rank, a.member)

/-- One member comes before another just when it stands lower. -/
theorem before_iff {a b : Scored} (ha : IsNumber a.score) (hb : IsNumber b.score) :
    a.before b = true ↔ a.place < b.place := by
  unfold before place
  rw [Bool.or_eq_true, Bool.and_eq_true, Bool.not_eq_true', decide_eq_true_iff,
    ← Bool.not_eq_true, scoreBefore_iff ha hb, scoreBefore_iff hb ha, Prod.Lex.toLex_lt_toLex,
    not_lt]
  constructor
  · rintro (hlt | ⟨hle, hmember⟩)
    · exact .inl hlt
    · rcases hle.lt_or_eq with hlt | heq
      · exact .inl hlt
      · exact .inr ⟨heq, hmember⟩
  · rintro (hlt | ⟨heq, hmember⟩)
    · exact .inl hlt
    · exact .inr ⟨heq.le, hmember⟩

theorem mem_insert {a b : Scored} {members : List Scored} :
    b ∈ insert a members ↔ b = a ∨ b ∈ members := by
  induction members with
  | nil => simp [insert]
  | cons c rest ih =>
    rw [insert]
    split
    · exact List.mem_cons
    · rw [List.mem_cons, ih, List.mem_cons]
      exact or_left_comm

/-- A member that is given a score has this score, and the others keep theirs. -/
theorem mem_put {a b : Scored} {members : List Scored} :
    b ∈ put a members ↔ b = a ∨ (b ∈ members ∧ b.member ≠ a.member) := by
  unfold put
  rw [mem_insert, List.mem_filter, bne_iff_ne]

/-- The members stand in order, none of them twice, and their scores are numbers. -/
structure InOrder (members : List Scored) : Prop where
  numbers : ∀ a ∈ members, IsNumber a.score
  sorted : members.Pairwise fun a b => a.place < b.place
  once : (members.map member).Nodup

namespace InOrder

variable {members : List Scored}

theorem nil : InOrder [] := ⟨fun _ h => absurd h List.not_mem_nil, .nil, .nil⟩

theorem filter (h : InOrder members) (f : Scored → Bool) : InOrder (members.filter f) where
  numbers a ha := h.numbers a (List.mem_of_mem_filter ha)
  sorted := h.sorted.filter f
  once := h.once.sublist (List.filter_sublist.map member)

/-- A new member finds its place. -/
theorem insert {a : Scored} (h : InOrder members) (ha : IsNumber a.score)
    (hnew : a.member ∉ members.map member) : InOrder (Scored.insert a members) := by
  induction members with
  | nil => exact ⟨by simpa [Scored.insert] using ha, by simp [Scored.insert], by simp [Scored.insert]⟩
  | cons b rest ih =>
    obtain ⟨hb, hrest⟩ := List.forall_mem_cons.mp h.numbers
    obtain ⟨hlow, hsorted⟩ := List.pairwise_cons.mp h.sorted
    obtain ⟨hne, honce⟩ := List.nodup_cons.mp h.once
    obtain ⟨hab, hnew⟩ := not_or.mp (List.mem_cons.not.mp hnew)
    rw [Scored.insert]
    split
    · next hbefore =>
      have hlt := (before_iff ha hb).mp hbefore
      refine ⟨List.forall_mem_cons.mpr ⟨ha, h.numbers⟩, List.pairwise_cons.mpr ⟨?_, h.sorted⟩, ?_⟩
      · intro c hc
        rcases List.mem_cons.mp hc with rfl | hc
        · exact hlt
        · exact hlt.trans (hlow c hc)
      · exact List.nodup_cons.mpr ⟨List.not_mem_cons_of_ne_of_not_mem hab hnew, h.once⟩
    · next hbefore =>
      have htail := ih ⟨hrest, hsorted, honce⟩ hnew
      have hlt : b.place < a.place := by
        have hle := not_lt.mp ((before_iff ha hb).not.mp hbefore)
        refine lt_of_le_of_ne hle fun heq => hab ?_
        exact (congrArg (fun p => (ofLex p).2) heq).symm
      refine ⟨?_, List.pairwise_cons.mpr ⟨?_, htail.sorted⟩, List.nodup_cons.mpr ⟨?_, htail.once⟩⟩
      · exact List.forall_mem_cons.mpr ⟨hb, htail.numbers⟩
      · intro c hc
        rcases mem_insert.mp hc with rfl | hc
        · exact hlt
        · exact hlow c hc
      · intro hmem
        obtain ⟨c, hc, heq⟩ := List.mem_map.mp hmem
        rcases mem_insert.mp hc with rfl | hc
        · exact hab heq
        · exact hne (heq ▸ List.mem_map_of_mem hc)

theorem put {a : Scored} (h : InOrder members) (ha : IsNumber a.score) :
    InOrder (Scored.put a members) := by
  refine (h.filter _).insert ha fun hmem => ?_
  obtain ⟨b, hb, heq⟩ := List.mem_map.mp hmem
  exact bne_iff_ne.mp (List.mem_filter.mp hb).2 heq

/-- What stands in order is told by its members. -/
theorem ext {others : List Scored} (h : InOrder members) (h' : InOrder others)
    (hmem : ∀ a, a ∈ members ↔ a ∈ others) : members = others := by
  have hperm : members.Perm others :=
    (List.perm_ext_iff_of_nodup h.once.of_map h'.once.of_map).mpr hmem
  exact hperm.eq_of_pairwise (fun _ _ _ _ hab hba => absurd hba hab.asymm) h.sorted h'.sorted

end InOrder

end Scored

namespace Store.Keeps

variable {s : Store} {k : Key} {members : List Scored}

theorem ordered (h : s.Keeps k (.ordered members)) (now : Int) : s.ordered now k = members := by
  unfold Store.ordered
  rw [h.find? now]
  cases members <;> rfl

theorem orderedPut (h : s.Keeps k (.ordered members)) (now : Int) (m : String) (score : Float) :
    ((Command.orderedPut k m score).run now s).2.Keeps k (.ordered (Scored.put ⟨m, score⟩ members)) := by
  simp only [Command.run, h.ordered now]
  exact h.keep now _

theorem orderedRemove (h : s.Keeps k (.ordered members)) (now : Int) (m : String) :
    ((Command.orderedRemove k m).run now s).2.Keeps k
      (.ordered (members.filter (·.member != m))) := by
  simp only [Command.run, h.ordered now]
  split
  · exact h.keep now _
  · next hnone =>
    have hall : members.filter (·.member != m) = members := by
      rw [List.filter_eq_self]
      intro a ha
      rw [bne_iff_ne]
      intro heq
      exact hnone (List.any_eq_true.mpr ⟨a, ha, beq_iff_eq.mpr heq⟩)
    rw [hall]
    exact h

end Store.Keeps

end TaskAutomation
