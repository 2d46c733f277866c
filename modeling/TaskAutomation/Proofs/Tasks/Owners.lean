import TaskAutomation.Proofs.Tasks.Due
import TaskAutomation.Proofs.Tasks.RoundTrip

/-!
# Tasks that change hands

* `Tasks.Ranks m u rank members` : an index of a user has the user's tasks at their ranks; it may still
  have tasks that went to other users;
* `Tasks.Tracked s m` : the store holds the documents of the tasks of `m`, and its indexes by creation
  and by due date are of this kind; `Saved.tracked`, `Tasks.ownerUpkeep` : they stay so, whoever a task
  is written for;
* `Tasks.Tended w` : the world comes from an empty store by edits that may give tasks to other users,
  with other programs in between; `Tended.tracked` : its indexes are of this kind.
-/

namespace TaskAutomation

open Check Program

/-- The task passed its check, at a time in whole minutes from UTC. -/
def Task.Accepted (t : Task) : Prop :=
  ∃ (s : Setting) (v : Value), (s.now.Stamped ∧ s.now.isNaive = false) ∧ Task.check s v = .ok t

theorem Task.accepted_of_check {now : Moment} {v : Value} {t : Task}
    (hnow : now.Stamped ∧ now.isNaive = false) (h : Task.check { now } v = .ok t) : t.Accepted :=
  ⟨{ now }, v, hnow, h⟩

namespace Tasks

variable {s s' : Store} {w later : World} {m : String → Option Task} {t : Task} {u : String}
  {rank : Task → Option Moment} {members : List Scored}

/-! ## Indexes with tasks that are gone -/

/-- The members of an index of a user are stored tasks, in order, and of the user's own tasks they are
just those with a rank, each at the score of its rank. Nothing is said of other users' tasks. -/
structure Ranks (m : String → Option Task) (u : String) (rank : Task → Option Moment)
    (members : List Scored) : Prop where
  order : Scored.InOrder members
  stored : ∀ a ∈ members, ∃ t, m a.member = some t
  own : ∀ a t, m a.member = some t → t.userId = u →
    (a ∈ members ↔ ∃ x ∈ rank t, a.score = x.timestamp)

/-- A task of another user is written, and the index is left alone. -/
theorem Ranks.elsewhere (h : Ranks m u rank members) (ht : t.userId ≠ u) :
    Ranks (Function.update m t.id (some t)) u rank members where
  order := h.order
  stored a ha := by
    by_cases hid : a.member = t.id
    · exact ⟨t, by rw [hid, Function.update_self]⟩
    · rw [Function.update_of_ne hid]
      exact h.stored a ha
  own a t' hm ht' := by
    by_cases hid : a.member = t.id
    · rw [hid, Function.update_self] at hm
      cases hm
      exact absurd ht' ht
    · rw [Function.update_of_ne hid] at hm
      exact h.own a t' hm ht'

/-- A task of the user is written, and the index gets it at its rank or, without one, loses it. -/
theorem Ranks.write (h : Ranks m t.userId rank members) {members' : List Scored}
    (horder : Scored.InOrder members') (hmem : ∀ a, a ∈ members' ↔
      if a.member = t.id then ∃ x ∈ rank t, a.score = x.timestamp else a ∈ members) :
    Ranks (Function.update m t.id (some t)) t.userId rank members' where
  order := horder
  stored a ha := by
    by_cases hid : a.member = t.id
    · exact ⟨t, by rw [hid, Function.update_self]⟩
    · rw [hmem, if_neg hid] at ha
      rw [Function.update_of_ne hid]
      exact h.stored a ha
  own a t' hm ht' := by
    rw [hmem]
    by_cases hid : a.member = t.id
    · rw [hid, Function.update_self] at hm
      cases hm
      rw [if_pos hid]
    · rw [Function.update_of_ne hid] at hm
      rw [if_neg hid]
      exact h.own a t' hm ht'

/-- The store holds the tasks of a map, and the indexes of each user have the user's tasks. -/
structure Tracked (s : Store) (m : String → Option Task) : Prop where
  documents : Documents s m
  created : ∀ u, ∃ members, s.Keeps (.taskUser u) (.ordered members) ∧
    Ranks m u (fun t => some t.createdAt) members
  due : ∀ u, ∃ members, s.Keeps (.taskDue u) (.ordered members) ∧ Ranks m u Task.dueDate members

theorem tracked_of_empty (h : s.slots = []) : Tracked s fun _ => none := by
  have hkeeps : ∀ k, s.Keeps k (.ordered []) := by
    intro k
    refine Store.keeps_of_lookup_none ?_ rfl
    rw [h]
    rfl
  have hranks : ∀ u rank, Ranks (fun _ => none) u rank [] := by
    intro u rank
    refine ⟨.nil, fun a ha => absurd ha List.not_mem_nil, fun a t hm => ?_⟩
    cases hm
  refine ⟨(indexed_of_empty h).document, fun u => ?_, fun u => ?_⟩
  · exact ⟨[], hkeeps _, hranks u _⟩
  · exact ⟨[], hkeeps _, hranks u _⟩

def IsTaskKey : Key → Prop
  | .taskDetail _ | .taskUser _ | .taskDue _ => True
  | _ => False

theorem Tracked.of_lookup_eq (h : Tracked s m)
    (heq : ∀ k, IsTaskKey k → s'.slots.lookup k = s.slots.lookup k) : Tracked s' m where
  documents id := (h.documents id).of_lookup_eq (heq _ trivial)
  created u := by
    obtain ⟨members, hkeeps, hranks⟩ := h.created u
    exact ⟨members, hkeeps.of_lookup_eq (heq _ trivial), hranks⟩
  due u := by
    obtain ⟨members, hkeeps, hranks⟩ := h.due u
    exact ⟨members, hkeeps.of_lookup_eq (heq _ trivial), hranks⟩

/-! ## Writing a task -/

theorem mem_created {a : Scored} :
    a ∈ Scored.put ⟨t.id, t.createdAt.timestamp⟩ members ↔
      if a.member = t.id then ∃ x ∈ some t.createdAt, a.score = x.timestamp else a ∈ members := by
  obtain ⟨member, score⟩ := a
  rw [Scored.mem_put, Scored.mk.injEq]
  by_cases hid : member = t.id
  · simp [hid]
  · simp [hid]

/-- A task is written: the indexes of its user get it, and those of others stay as they are, with the
task in them if it was. -/
theorem Saved.tracked (hsaved : Saved s s' t) (h : Tracked s m)
    (hdocument : Document s' t.id (some t.written)) :
    Tracked s' (Function.update m t.id (some t.written)) where
  documents := hsaved.documents h.documents hdocument
  created u := by
    obtain ⟨members, hkeeps, hranks⟩ := h.created u
    by_cases hu : t.userId = u
    · subst hu
      refine ⟨_, hsaved.created hkeeps, Ranks.write (t := t.written) hranks ?_ fun a => mem_created⟩
      exact hranks.order.put (isNumber_timestamp _)
    · refine ⟨members, hkeeps.of_lookup_eq (hsaved.other _ not_false nofun ?_ nofun),
        Ranks.elsewhere (t := t.written) hranks hu⟩
      exact fun heq => hu (Key.taskUser.inj heq).symm
  due u := by
    obtain ⟨members, hkeeps, hranks⟩ := h.due u
    by_cases hu : t.userId = u
    · subst hu
      exact ⟨_, hsaved.due hkeeps, Ranks.write (t := t.written) hranks
        (inOrder_reindex t hranks.order) fun a => mem_reindex⟩
    · refine ⟨members, hkeeps.of_lookup_eq (hsaved.other _ not_false nofun nofun ?_),
        Ranks.elsewhere (t := t.written) hranks hu⟩
      exact fun heq => hu (Key.taskDue.inj heq).symm

theorem Saved.document_written (hsaved : Saved s s' t) (ht : t.Accepted)
    (hhours : Decimal.isFinite t.actualHours = true) : Document s' t.id (some t.written) := by
  obtain ⟨setting, v, hnow, hcheck⟩ := ht
  exact ⟨rfl, (Task.wellFormed_of_check hnow.1.toShown hcheck).written, _,
    Task.check_storableFields hnow hcheck hhours, hsaved.document⟩

/-- Indexes have the tasks of their users, whoever a task is given to, if what is written can be read. -/
def ownerUpkeep : Upkeep where
  Holds := Tracked
  Clock now := now.Stamped ∧ now.isNaive = false
  Sound := Task.Accepted
  Fits _ t := Decimal.isFinite t.actualHours = true
  asRead := Task.written
  document h := h.documents
  sound_of_check hclock hcheck := ⟨_, _, hclock, hcheck⟩
  fits_congr h _ := h
  run_save previous h ho hsound hfits := by
    obtain ⟨w', hrun, hsaved⟩ := run_save _ previous ho
    exact ⟨w', hrun, hsaved.tracked h (hsaved.document_written hsound hfits)⟩

/-! ## Runs -/

/-- A task that is given has passed its check, and every task that is written can be read back. It may
be taken from its owner. -/
structure Edit.Legible (w : World) (e : Edit) : Prop where
  accepted : ∀ t previous, e = .save t previous → t.Accepted
  hours : ∀ t, e.Writes w t → Decimal.isFinite t.actualHours = true

/-- The worlds that edits lead to from an empty store. Between edits time may pass, and programs may
run that leave the documents of tasks and the indexes of users alone. Edits while something is out of
reach lead nowhere else: what is refused has written nothing. -/
inductive Tended : World → Prop where
  | start {w : World} (hstore : w.store.slots = [])
      (hclock : w.clock.Stamped ∧ w.clock.isNaive = false) (houtages : w.outages = []) : Tended w
  | edit {w : World} (h : Tended w) (e : Edit) (he : e.Legible w) : Tended (e.program.run w).2
  | other {w : World} (h : Tended w) {α : Type} (p : Program α)
      (hp : p.Within (Call.Touches fun k => ¬ IsTaskKey k)) : Tended (p.run w).2
  | pass {w w' : World} (h : Tended w) (hstore : w'.store = w.store)
      (hclock : w'.clock.Stamped ∧ w'.clock.isNaive = false) (houtages : w'.outages = []) : Tended w'

/-- After any edits the indexes of each user have the user's tasks. -/
theorem Tended.tracked (h : Tended w) : (∃ m, Tracked w.store m) ∧ w.store.SetsOnce ∧
    (w.clock.Stamped ∧ w.clock.isNaive = false) ∧ w.outages = [] := by
  induction h with
  | start hstore hclock houtages =>
    exact ⟨⟨_, tracked_of_empty hstore⟩, Store.setsOnce_of_empty hstore, hclock, houtages⟩
  | edit h e he ih =>
    obtain ⟨⟨m, hm⟩, hsets, hclock, houtages⟩ := ih
    refine ⟨?_, setsOnce_run _ hsets, ?_, ?_⟩
    · exact ownerUpkeep.edit_holds hm hsets houtages hclock he.accepted he.hours
    · rwa [run_clock]
    · rwa [run_outages]
  | other h p hp ih =>
    obtain ⟨⟨m, hm⟩, hsets, hclock, houtages⟩ := ih
    refine ⟨⟨m, hm.of_lookup_eq fun k hk => hp.lookup_run (not_not.mpr hk) _⟩, setsOnce_run _ hsets,
      ?_, ?_⟩
    · rwa [run_clock]
    · rwa [run_outages]
  | pass h hstore hclock houtages ih =>
    obtain ⟨⟨m, hm⟩, hsets, -, -⟩ := ih
    exact ⟨⟨m, hstore ▸ hm⟩, hstore ▸ hsets, hclock, houtages⟩

end Tasks

end TaskAutomation
