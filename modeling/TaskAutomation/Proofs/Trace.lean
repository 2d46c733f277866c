import Mathlib.Data.List.Forall2
import TaskAutomation.Trace

/-!
# Traces nest like a stack

Whatever work is done in traces and wherever it fails, each trace is left in the state in which it was
entered.

* `State.Inside s` : the state inside a trace; `State.Settled s` : outside all of them, or inside one;
  `Trace.leave_current_iff` : a trace that is left leads back just to settled states;
* `Visit.Kept v` : a trace that leads back, and inside which an id stays current;
  `Trail.Returns r s` : all traces of some work do so, as does the work; `Work.returns_run` : from a
  settled state all work does;
* `Trail.Stacked r s t inner blocks` : traces one inside another, around work that begins at `t` inside all
  of them and leaves the trail `inner`; `Work.stacked_nested` : so it is for nested traces;
  `Trace.seen_eq` : the ids that are seen on the way out are those seen on the way in, backwards;
* `Trace.traces_nest` : nested traces around any work are stacked, and lead back.
-/

namespace TaskAutomation.Trace

variable {ε : Type} {s t u : State}

/-! ## States -/

/-- Inside a trace its id is current, and it is the stamp. -/
structure State.Inside (s : State) : Prop where
  current_ne_empty : s.current ≠ ""
  stamp_eq : s.stamp = some s.current

/-- Outside all traces, or inside one. -/
def State.Settled (s : State) : Prop := s = {} ∨ s.Inside

theorem inside_enter {id : String} (h : id ≠ "") (s : State) : (enter id s).Inside := ⟨h, rfl⟩

/-- A trace leads back just to a settled state, whatever has become of the state inside it. -/
theorem leave_current_iff (t : State) : leave s.current t = s ↔ s.Settled := by
  unfold leave
  split
  · next hempty =>
    have hcurrent : s.current = "" := String.isEmpty_iff.mp hempty
    exact ⟨fun h => .inl h.symm, fun h => h.elim Eq.symm fun hs => absurd hcurrent hs.current_ne_empty⟩
  · next hempty =>
    have hcurrent : s.current ≠ "" := mt String.isEmpty_iff.mpr hempty
    refine ⟨fun h => .inr ⟨hcurrent, (congrArg State.stamp h).symm⟩, fun h => ?_⟩
    obtain rfl | hs := h
    · exact absurd rfl hcurrent
    · exact congrArg (State.mk s.current) hs.stamp_eq.symm

/-! ## Ids -/

/-- A trace has the id that it is given; if that is empty or nothing, it has one of the supply. -/
def Supply.Names (fresh : Supply) (given : Option String) (id : String) : Prop :=
  given = some id ∧ id ≠ "" ∨ (given = none ∨ given = some "") ∧ ∃ n, id = fresh.id n

theorem Supply.Names.ne_empty {fresh : Supply} {given : Option String} {id : String}
    (h : fresh.Names given id) : id ≠ "" := by
  obtain ⟨-, hid⟩ | ⟨-, n, rfl⟩ := h
  · exact hid
  · exact fresh.id_ne_empty n

theorem Supply.names_name (fresh : Supply) (n : Nat) (given : Option String) :
    fresh.Names given (fresh.name n given).1 := by
  unfold name
  split
  · next id hgiven =>
    obtain ⟨rfl, hid⟩ := Option.filter_eq_some_iff.mp hgiven
    exact .inl ⟨rfl, by simpa using hid⟩
  · next hnone =>
    refine .inr ⟨?_, n + 1, rfl⟩
    cases given with
    | none => exact .inl rfl
    | some id => exact .inr (by simpa using hnone)

/-! ## Work leads back -/

/-- Inside a trace its id stays current and is the stamp, and it is left in the state in which it was
entered, without a stamp where there was no trace. -/
structure Visit.Kept (v : Visit) : Prop where
  last_eq : v.last = v.inside
  inside : v.inside.Inside
  looks : ∀ t ∈ v.looks, t.Inside
  after_eq : v.after = v.before
  unstamped : v.before.current = "" → v.after.stamp = none

/-- Work ends in the state in which it began, and all traces in it are kept; a look from elsewhere is one
from inside a trace. -/
structure Trail.Returns (r : Trail ε) (s : State) : Prop where
  state_eq : r.state = s
  looks : ∀ t ∈ r.looks, t = s ∨ t.Inside
  visits : ∀ v ∈ r.visits, v.Kept

namespace Trail.Returns

variable {r : Trail ε}

theorem append {next : Trail ε} (h : r.Returns s) (hnext : next.Returns s) : (r.append next).Returns s where
  state_eq := hnext.state_eq
  looks := List.forall_mem_append.mpr ⟨h.looks, hnext.looks⟩
  visits := List.forall_mem_append.mpr ⟨h.visits, hnext.visits⟩

theorem andThen {next : Nat → State → Trail ε} (h : r.Returns s) (hnext : ∀ n, (next n s).Returns s) :
    (r.andThen next).Returns s := by
  unfold Trail.andThen
  split
  · rw [h.state_eq]
    exact h.append (hnext r.taken)
  · exact h

theorem rescue {handler : ε → Nat → State → Trail ε} (h : r.Returns s)
    (hhandler : ∀ cause n, (handler cause n s).Returns s) : (r.rescue handler).Returns s := by
  unfold Trail.rescue
  split
  · exact h
  · next cause _ =>
    rw [h.state_eq]
    exact h.append (hhandler cause r.taken)

/-- A trace around work that leads back to the state inside it. -/
theorem within (h : r.Returns t) (hs : s.Settled) (ht : t.Inside) : (r.within s t).Returns s where
  state_eq := (leave_current_iff r.state).mpr hs
  looks a ha := .inr ((h.looks a ha).elim (fun heq => heq ▸ ht) id)
  visits := by
    have hafter : leave s.current r.state = s := (leave_current_iff r.state).mpr hs
    refine List.forall_mem_cons.mpr ⟨⟨h.state_eq, ht, ?_, hafter, fun hempty => ?_⟩, h.visits⟩
    · exact fun a ha => (h.looks a ha).elim (fun heq => heq ▸ ht) id
    · rw [hafter]
      exact hs.elim (fun heq => heq ▸ rfl) fun hinside => absurd hempty hinside.current_ne_empty

end Trail.Returns

/-- From a settled state, work leads back to it, whether or not it fails. -/
theorem Work.returns_run (w : Work ε) (fresh : Supply) (n : Nat) (hs : s.Settled) :
    (w.run fresh n s).Returns s := by
  induction w generalizing s n with
  | done => exact ⟨rfl, List.forall_mem_nil _, List.forall_mem_nil _⟩
  | fail cause => exact ⟨rfl, List.forall_mem_nil _, List.forall_mem_nil _⟩
  | look => exact ⟨rfl, List.forall_mem_singleton.mpr (.inl rfl), List.forall_mem_nil _⟩
  | andThen w next ih ihnext => exact (ih n hs).andThen fun taken => ihnext taken hs
  | traced given w ih =>
    -- the state inside is settled as well, whichever state is outside
    have hinside := inside_enter (fresh.names_name n given).ne_empty s
    exact (ih _ (.inr hinside)).within hs hinside
  | guarded w handler ih ihhandler => exact (ih n hs).rescue fun cause taken => ihhandler cause taken hs

/-! ## Nested traces -/

/-- A trail of traces one inside another. The first is entered at `s`, and each other one where the one
around it begins; inside all of them the work that leaves the trail `inner` begins at `t`. Where it ends,
the last trace is left, and each other one where the one inside it has been left. The trail ends as that
work does; if it does not fail, a look just before each trace is left follows its looks. -/
structure Trail.Stacked (r : Trail ε) (s t : State) (inner : Trail ε) (blocks : List Visit) : Prop where
  entered : blocks.map Visit.before ++ [t] = s :: blocks.map Visit.inside
  left : r.state :: blocks.map Visit.last = blocks.map Visit.after ++ [inner.state]
  visits_eq : r.visits = blocks ++ inner.visits
  outcome_eq : r.outcome = inner.outcome
  looks_eq : r.looks = blocks.map Visit.inside ++ inner.looks ++
    if inner.outcome.isOk then (blocks.map Visit.last).reverse else []

/-- Some work's trail with a look before it, and one after it unless it failed. -/
def Trail.looking (r : Trail ε) (s : State) : Trail ε :=
  { r with looks := s :: r.looks ++ if r.outcome.isOk then [r.state] else [] }

theorem Work.run_between_looks (w : Work ε) (fresh : Supply) (n : Nat) (s : State) :
    (Work.andThen .look (.andThen w .look)).run fresh n s = (w.run fresh n s).looking s := by
  change Trail.append ⟨.ok (), s, n, [s], []⟩ ((w.run fresh n s).andThen (Work.look.run fresh)) = _
  unfold Trail.andThen Trail.looking
  split
  · next hok => simp [Trail.append, run, hok, Except.isOk, Except.toBool]
  · next hfail => simp [Trail.append, hfail, Except.isOk, Except.toBool]

/-- One more trace around traces one inside another. -/
theorem Trail.Stacked.within {r inner : Trail ε} {blocks : List Visit} (h : r.Stacked t u inner blocks)
    (s : State) : ∃ v : Visit, v.inside = t ∧
      ((r.looking t).within s t).Stacked s u inner (v :: blocks) := by
  refine ⟨⟨s, t, (r.looking t).looks, r.state, leave s.current r.state⟩, rfl,
    ?_, ?_, ?_, h.outcome_eq, ?_⟩
  · exact congrArg (s :: ·) h.entered
  · exact congrArg (_ :: ·) h.left
  · exact congrArg (_ :: ·) h.visits_eq
  · change t :: r.looks ++ _ = _
    rw [h.looks_eq, h.outcome_eq]
    split <;> simp

/-- Traces one inside another, by their ids in order, around any work. -/
theorem Work.stacked_nested (w : Work ε) (fresh : Supply) (ids : List (Option String)) (n : Nat) (s : State) :
    ∃ blocks m t, ((w.nested ids).run fresh n s).Stacked s t (w.run fresh m t) blocks ∧
      List.Forall₂ (fun given v => fresh.Names given v.inside.current) ids blocks := by
  induction ids generalizing n s with
  | nil => exact ⟨[], n, s, ⟨rfl, rfl, rfl, rfl, by simp [nested]⟩, .nil⟩
  | cons given rest ih =>
    -- in the first trace the others are stacked, between its two looks
    obtain ⟨blocks, m, t, hstacked, hnames⟩ :=
      ih (fresh.name n given).2 (enter (fresh.name n given).1 s)
    obtain ⟨v, hv, hwithin⟩ := hstacked.within s
    rw [← run_between_looks] at hwithin
    refine ⟨v :: blocks, m, t, hwithin, .cons ?_ hnames⟩
    rw [hv]
    exact fresh.names_name n given

/-- What is seen on the way out of nested traces is what was seen on the way in, backwards, with no
trace before and after them. -/
theorem seen_eq (ids : List (Option String)) :
    ∃ names, List.Forall₂ Supply.counted.Names ids names ∧
      seen ids = "" :: (names ++ names.reverse) ++ [""] := by
  obtain ⟨blocks, m, t, hstacked, hnames⟩ := Work.stacked_nested (.done : Work Empty) .counted ids 0 {}
  have hreturns := Work.returns_run (.nested (.done : Work Empty) ids) .counted 0 (.inl rfl)
  have hlast : blocks.map Visit.last = blocks.map Visit.inside := by
    refine List.map_congr_left fun v hv => (hreturns.visits v ?_).last_eq
    rw [hstacked.visits_eq]
    exact List.mem_append_left _ hv
  have hlooks := hstacked.looks_eq
  rw [hlast] at hlooks
  refine ⟨blocks.map fun v => v.inside.current, List.forall₂_map_right_iff.mpr hnames, ?_⟩
  rw [seen, Work.run_between_looks, Trail.looking, hlooks, hstacked.outcome_eq, hreturns.state_eq]
  simp [Work.run, Except.isOk, Except.toBool, Function.comp_def]

example : seen [some "a", none] = ["", "a", "0000000000000001", "0000000000000001", "a", ""] := rfl

/-! ## The stack -/

/-- Traces around any work, whatever it does and wherever it fails, nest like a stack, outside all traces
and inside any: each is entered where the one around it begins, under the id that it is given or one of
the supply; its id stays current until it is left, which is where the one inside it has been; and then
the ids are those from before it. -/
theorem traces_nest (fresh : Supply) (hs : s.Settled) (n : Nat) (w : Work ε) (ids : List (Option String)) :
    ((w.nested ids).run fresh n s).Returns s ∧
      ∃ blocks m t, ((w.nested ids).run fresh n s).Stacked s t (w.run fresh m t) blocks ∧
        List.Forall₂ (fun given v => fresh.Names given v.inside.current) ids blocks :=
  ⟨(w.nested ids).returns_run fresh n hs, w.stacked_nested fresh ids n s⟩

/-- Inside a trace. -/
def outerTrace : State := ⟨"outer", some "outer"⟩

/-- Work in a trace without an id, after which there is a failure. -/
def lateFailure : Work String := .andThen (Work.nested .done [none]) (.fail "late")

/-- The trail of that work in two more traces, of which the inner one has an empty id. -/
def failedTrail : Trail String := (lateFailure.nested [some "a", some ""]).run .counted 0 outerTrace

/-- The failure leads out of both traces, back into the one around them. -/
theorem traces_nest_of_failure : outerTrace.Settled ∧ failedTrail.outcome = .error "late" ∧
    failedTrail.visits.map (fun v => (v.before.current, v.inside.current)) =
      [("outer", "a"), ("a", "0000000000000001"), ("0000000000000001", "0000000000000002")] ∧
    failedTrail.Returns outerTrace ∧
    ∃ blocks m t, failedTrail.Stacked outerTrace t (lateFailure.run .counted m t) blocks ∧
      List.Forall₂ (fun given v => Supply.counted.Names given v.inside.current) [some "a", some ""] blocks :=
  have hs : outerTrace.Settled := .inr ⟨by decide, rfl⟩
  ⟨hs, rfl, rfl, traces_nest .counted hs 0 lateFailure [some "a", some ""]⟩

end TaskAutomation.Trace
