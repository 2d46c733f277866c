import TaskAutomation.Proofs.Tasks.Related

/-!
# Tasks that are written again

A task is written together with all of its indexes, whatever has changed in it. In a store that is in
order most of this writes what is there:

* `Tasks.Settled s m` : the store holds the tasks of `m`, the indexes of each user have the user's tasks,
  and the sets of clients and parents have their tasks, maybe with others; `Settled.save` : it stays so,
  whatever version a task is said to replace;
* `Ranks.mem_iff`, `Tasks.run_moves_same` : a task that is in its indexes and sets is put in again;
* `Settled.rewrite` : a stored task that is written again with the same owner, creation, client and parent
  changes its document and, if it is due at another time, its place among the due tasks of its owner, and
  nothing else;
* `Tasks.Used w ds` : the world comes from an empty store by edits, by records of the dependencies `ds`,
  and by other programs; `Used.inUse` : its store is in order, and the set of each task has those that
  were recorded to depend on it (`Tasks.Depend`).
-/

namespace TaskAutomation.Tasks

open Check Program

variable {s s' : Store} {w : World} {m : String → Option Task} {t old : Task}

/-! ## Stores in order -/

/-- The store holds the tasks of a map, all with finite numbers; the indexes of each user have the user's
tasks; and under the name of each client and each parent there is a set with the ids of its tasks, and maybe
with others. -/
structure Settled (s : Store) (m : String → Option Task) : Prop extends Tracked s m where
  storable : ∀ id t, m id = some t → t.Storable
  sets : ∀ {r key}, Relation.Named r → r.key? = some key →
    ∃ p : String → Prop, s.Collects key p ∧ ∀ id t, m id = some t → r.Concerns t → p id

theorem settled_of_empty (h : s.slots = []) : Settled s fun _ => none where
  toTracked := tracked_of_empty h
  storable _ _ := nofun
  sets hnamed hkey := ⟨_, (grouped_of_empty h).sets hnamed hkey, fun _ _ => nofun⟩

theorem Settled.of_lookup_eq (h : Settled s m)
    (heq : ∀ k, IsRecord k → s'.slots.lookup k = s.slots.lookup k) : Settled s' m where
  toTracked := h.toTracked.of_lookup_eq fun k hk => heq k (by cases k <;> trivial)
  storable := h.storable
  sets {r key} hnamed hkey := by
    obtain ⟨p, hcollects, hmem⟩ := h.sets hnamed hkey
    refine ⟨p, hcollects.of_lookup_eq (heq key ?_), hmem⟩
    cases r <;> cases hkey <;> trivial

/-- A store stays in order if what is written can be read, whatever it is said to replace. -/
theorem Settled.save (h : Settled w.store m) (ho : w.outages = []) (previous : Option Task)
    (ht : t.Accepted) (hhours : Decimal.isFinite t.actualHours = true) :
    ∃ w', (Tasks.save t previous).run w = (.ok t, w') ∧
      Settled w'.store (Function.update m t.id (some t.written)) := by
  obtain ⟨w', hrun, hsaved, hcollects⟩ := run_save_sets t previous ho
  refine ⟨w', hrun, hsaved.tracked h.toTracked (hsaved.document_written ht hhours), fun id t' hm => ?_,
    fun {r key} hnamed hkey => ?_⟩
  · by_cases hid : id = t.id
    · rw [hid, Function.update_self] at hm
      cases hm
      exact storable_written hhours
    · rw [Function.update_of_ne hid] at hm
      exact h.storable id t' hm
  · obtain ⟨p, hp, hmem⟩ := h.sets hnamed hkey
    refine ⟨_, hcollects hnamed hkey hp, fun id t' hm hrelated => ?_⟩
    by_cases hid : id = t.id
    · rw [hid, Function.update_self] at hm
      cases hm
      rw [if_pos hid]
      exact .inl (by cases r <;> exact hrelated)
    · rw [Function.update_of_ne hid] at hm
      rw [if_neg hid]
      exact hmem id t' hm hrelated

/-- Stores stay in order if what is written can be read. -/
def settledUpkeep : Upkeep where
  Holds := Settled
  Clock now := now.Stamped ∧ now.isNaive = false
  Sound := Task.Accepted
  Fits _ t := Decimal.isFinite t.actualHours = true
  asRead := Task.written
  document h := h.documents
  sound_of_check := @Task.accepted_of_check
  fits_congr h _ := h
  run_save previous h ho hsound hfits := h.save ho previous hsound hfits

/-! ## Writing what is there -/

/-- A task of the same id, owner, creation, client and parent. -/
structure Kin (old t : Task) : Prop where
  id : t.id = old.id
  owner : t.userId = old.userId
  created : t.createdAt = old.createdAt
  client : t.clientId = old.clientId
  parent : t.parentTaskId = old.parentTaskId

/-- A stored task is in an index of its owner as it is when it is written. -/
theorem Ranks.mem_iff {u : String} {rank : Task → Option Moment} {members : List Scored}
    (h : Ranks m u rank members) {id : String} (hm : m id = some old) (hu : old.userId = u) (a : Scored) :
    a ∈ members ↔
      if a.member = id then ∃ x ∈ rank old, a.score = x.timestamp else a ∈ members := by
  split
  · next hid => exact h.own a old (hid ▸ hm) hu
  · rfl

/-- A task that stays in its set leaves it as it is. -/
theorem run_move_same {id : String} {key : String → Key} {name : Option String}
    (h : ∀ n, name = some n → n ≠ "" → id ∈ w.store.members w.clock.instant (key n)) :
    (move id key name name).run w = (.ok (), w) := by
  have hleave : leave id key name name = pure () := by
    cases name <;> simp [leave]
  have hjoin : (join id key name).run w = (.ok (), w) := by
    unfold join
    cases name with
    | none => rfl
    | some n =>
      dsimp only
      split
      · next hn =>
        have hmem : (w.store.members w.clock.instant (key n)).contains id = true :=
          List.contains_iff_mem.mpr (h n rfl (by rintro rfl; simp at hn))
        rw [run_store, World.after]
        simp only [Command.run, hmem, if_true]
      · rfl
  rw [move_eq, hleave, run_bind_ok (run_pure () w), hjoin]

theorem run_moves_same (hkin : Kin old t) (h : ∀ {r key}, Relation.Named r → r.key? = some key →
      r.Concerns t → t.id ∈ w.store.members w.clock.instant key) :
    (moves t (some old)).run w = (.ok t, w) := by
  have hclient : (move t.id .taskClient ((some old).bind Task.clientId) t.clientId).run w =
      (.ok (), w) := by
    rw [Option.bind_some, ← hkin.client]
    exact run_move_same fun n hn hne => h (r := .client n) hne rfl hn
  have hparent : (move t.id .taskParent ((some old).bind Task.parentTaskId) t.parentTaskId).run w =
      (.ok (), w) := by
    rw [Option.bind_some, ← hkin.parent]
    exact run_move_same fun n hn hne => h (r := .parent n) hne rfl hn
  unfold moves
  rw [run_bind_ok hclient, run_bind_ok hparent, run_pure]

/-- A stored task is written again with the same owner, creation, client and parent: its document changes,
and its place among the due tasks of its owner if it is due at another time. -/
theorem Settled.rewrite (h : Settled w.store m) (ho : w.outages = []) (hm : m t.id = some old)
    (hkin : Kin old t) (ht : t.Accepted) (hhours : Decimal.isFinite t.actualHours = true) :
    ∃ w', (Tasks.save t (some old)).run w = (.ok t, w') ∧ Saved w.store w'.store t
      ∧ Settled w'.store (Function.update m t.id (some t.written))
      ∧ ∀ k, k ≠ .taskDetail t.id → (k = .taskDue t.userId → t.dueDate = old.dueDate) →
        w'.store.slots.lookup k = w.store.slots.lookup k := by
  obtain ⟨w', hrun, hsettled⟩ := h.save ho (some old) ht hhours
  obtain ⟨w'', hrun', hsaved⟩ := run_save t (some old) ho
  rw [hrun] at hrun'
  cases hrun'
  refine ⟨w', hrun, hsaved, hsettled, fun k hdetail hdue => ?_⟩
  by_cases hrelated : IsRelated k
  · -- the document and the indexes of the owner are written first, and then there is nothing to move
    have hbefore : ∀ k, IsRelated k →
        ((documented w t).after (dueCommand t)).store.slots.lookup k = w.store.slots.lookup k := by
      intro k hk
      rw [World.lookup_after _ (by rw [written_dueCommand]; rintro ⟨⟩; exact hk),
        lookup_documented _ _ _ (by rintro rfl; exact hk), if_neg (by rintro rfl; exact hk)]
    have hmoves := run_moves_same (w := (documented w t).after (dueCommand t)) hkin
      fun {r key} hnamed hkey hconcerns => by
        obtain ⟨p, hcollects, hmem⟩ := h.sets hnamed hkey
        have hkept := hcollects.of_lookup_eq (hbefore key (by cases r <;> cases hkey <;> trivial))
        refine (hkept.mem_members _).mpr (hmem t.id old hm ?_)
        cases r with
        | client n => exact hkin.client.symm.trans hconcerns
        | parent n => exact hkin.parent.symm.trans hconcerns
        | nobody => exact hconcerns.elim
    rw [← run_save_moves t (some old) ho, hrun] at hmoves
    cases hmoves
    exact hbefore k hrelated
  · by_cases huser : k = .taskUser t.userId
    · subst huser
      obtain ⟨members, hkeeps, hranks⟩ := h.created t.userId
      have horder : Scored.InOrder (Scored.put ⟨t.id, t.createdAt.timestamp⟩ members) :=
        hranks.order.put (isNumber_timestamp t.createdAt)
      have hsame : Scored.put ⟨t.id, t.createdAt.timestamp⟩ members = members := by
        refine horder.ext hranks.order fun a => ?_
        rw [mem_created, hkin.created]
        exact (hranks.mem_iff hm hkin.owner.symm a).symm
      exact hkeeps.lookup_eq (hsame ▸ hsaved.created hkeeps)
    · by_cases hk : k = .taskDue t.userId
      · obtain ⟨members, hkeeps, hranks⟩ := h.due t.userId
        have hsame : reindex t members = members := by
          refine (inOrder_reindex t hranks.order).ext hranks.order fun a => ?_
          rw [mem_reindex, hdue hk]
          exact (hranks.mem_iff hm hkin.owner.symm a).symm
        subst hk
        exact hkeeps.lookup_eq (hsame ▸ hsaved.due hkeeps)
      · exact hsaved.other k hrelated hdetail huser hk

/-! ## Dependencies -/

/-- What a record of a dependency puts down: a task and the one that it depends on, if their ids can be
stored. -/
def recorded (taskId dependsOn : Value) : List (String × String) :=
  match storedText taskId, storedText dependsOn with
  | .ok task, .ok other => [(task, other)]
  | _, _ => []

/-- The set of each task has those that were recorded to depend on it. -/
def Depend (s : Store) (ds : List (String × String)) : Prop :=
  ∀ other, s.Collects (.taskDependents other) fun id => (id, other) ∈ ds

theorem depend_of_empty (h : s.slots = []) : Depend s [] := by
  intro other
  refine ⟨[], Store.keeps_of_lookup_none (by rw [h]; rfl) rfl, List.nodup_nil, fun id => ?_⟩
  simp

theorem Depend.of_lookup_eq {ds : List (String × String)} (h : Depend s ds)
    (heq : ∀ k, IsDependency k → s'.slots.lookup k = s.slots.lookup k) : Depend s' ds :=
  fun other => (h other).of_lookup_eq (heq _ trivial)

/-- What is recorded is in the sets, and what was in them stays. -/
theorem Depend.createDependency {ds : List (String × String)} (h : Depend w.store ds)
    (ho : w.outages = []) (taskId dependsOn : Value) :
    Depend ((createDependency taskId dependsOn).run w).2.store (recorded taskId dependsOn ++ ds) := by
  unfold Tasks.createDependency newId fresh recorded
  rw [Operation.run_guard ho, run_bind_ok (run_bind_ok (run_call _ w)), run_bind, run_ofExcept]
  cases storedText taskId with
  | error f => exact h
  | ok task =>
    simp only [run_bind, run_ofExcept]
    cases storedText dependsOn with
    | error f => exact h
    | ok known =>
      intro other
      have hbefore : ∀ id cells, (((w.answer (.fresh .task)).2.after (.tableSet (.dependency id)
          cells)).store.Collects (.taskDependents other) fun id => (id, other) ∈ ds) :=
        fun id cells => (h other).of_lookup_eq (World.lookup_after _ nofun)
      show (World.after (World.after _ (.tableSet (.dependency _) _))
        (.setAdd (.taskDependents known) task)).store.Collects _ _
      by_cases hother : other = known
      · subst hother
        refine ((hbefore _ _).setAdd _ task).congr fun id => ?_
        simp [or_comm]
      · have hwritten : (Command.setAdd (.taskDependents known) task).written ≠
            some (.taskDependents other) := by simp [Command.written, Ne.symm hother]
        refine ((hbefore _ _).of_lookup_eq (World.lookup_after _ hwritten)).congr fun id => ?_
        simp [hother]

/-! ## Runs -/

/-- The worlds that edits and records of dependencies lead to from an empty store, with the dependencies
that were recorded. Between them time may pass, and programs may run that leave tasks and dependencies
alone. -/
inductive Used : World → List (String × String) → Prop where
  | start {w : World} (hstore : w.store.slots = [])
      (hclock : w.clock.Stamped ∧ w.clock.isNaive = false) (houtages : w.outages = []) : Used w []
  | edit {w : World} {ds : List (String × String)} (h : Used w ds) (e : Edit) (he : e.Legible w) :
      Used (e.program.run w).2 ds
  | depend {w : World} {ds : List (String × String)} (h : Used w ds) (taskId dependsOn : Value) :
      Used ((createDependency taskId dependsOn).run w).2 (recorded taskId dependsOn ++ ds)
  | other {w : World} {ds : List (String × String)} (h : Used w ds) {α : Type} (p : Program α)
      (hp : p.Within (Call.Touches fun k => ¬ IsRecord k ∧ ¬ IsDependency k)) : Used (p.run w).2 ds
  | pass {w w' : World} {ds : List (String × String)} (h : Used w ds) (hstore : w'.store = w.store)
      (hclock : w'.clock.Stamped ∧ w'.clock.isNaive = false) (houtages : w'.outages = []) : Used w' ds

/-- What a store in use is like: it is in order, and has the dependencies that were recorded. -/
structure InUse (w : World) (m : String → Option Task) (ds : List (String × String)) : Prop where
  settled : Settled w.store m
  depend : Depend w.store ds
  sets : w.store.SetsOnce
  clock : w.clock.Stamped ∧ w.clock.isNaive = false
  outages : w.outages = []

variable {ds : List (String × String)}

theorem InUse.run {α : Type} (h : InUse w m ds) {p : Program α} {r : Except Failure α} {w' : World}
    (hrun : p.run w = (r, w')) {m' : String → Option Task} {ds' : List (String × String)}
    (hsettled : Settled w'.store m') (hdepend : Depend w'.store ds') : InUse w' m' ds' where
  settled := hsettled
  depend := hdepend
  sets := by
    have hsets := setsOnce_run p h.sets
    rwa [hrun] at hsets
  clock := (clock_of_run hrun).symm ▸ h.clock
  outages := (outages_of_run hrun).trans h.outages

theorem InUse.createDependency (h : InUse w m ds) (taskId dependsOn : Value) :
    InUse ((createDependency taskId dependsOn).run w).2 m (recorded taskId dependsOn ++ ds) := by
  refine h.run rfl (h.settled.of_lookup_eq fun k hk => ?_) (h.depend.createDependency h.outages _ _)
  refine (discreet_createDependency taskId dependsOn).touches.lookup_run ?_ w
  cases k <;> first | exact id | exact hk.elim

theorem InUse.edit (h : InUse w m ds) (e : Edit) {m' : String → Option Task}
    (hsettled : Settled (e.program.run w).2.store m') : InUse (e.program.run w).2 m' ds := by
  refine h.run rfl hsettled (h.depend.of_lookup_eq fun k hk => ?_)
  exact e.discreet_program.touches.lookup_run (by cases k <;> first | exact id | exact hk.elim) w

/-- What writes no tasks leaves them, and what writes no dependencies leaves these. -/
theorem Used.inUse (h : Used w ds) : ∃ m, InUse w m ds := by
  induction h with
  | start hstore hclock houtages =>
    exact ⟨_, settled_of_empty hstore, depend_of_empty hstore, Store.setsOnce_of_empty hstore, hclock,
      houtages⟩
  | edit h e he ih =>
    obtain ⟨m, hm⟩ := ih
    obtain ⟨m', hm'⟩ :=
      settledUpkeep.edit_holds hm.settled hm.sets hm.outages hm.clock he.accepted he.hours
    exact ⟨m', hm.edit e hm'⟩
  | depend h taskId dependsOn ih =>
    obtain ⟨m, hm⟩ := ih
    exact ⟨m, hm.createDependency taskId dependsOn⟩
  | other h p hp ih =>
    obtain ⟨m, hm⟩ := ih
    exact ⟨m, hm.run rfl (hm.settled.of_lookup_eq fun k hk => hp.lookup_run (fun hnot => hnot.1 hk) _)
      (hm.depend.of_lookup_eq fun k hk => hp.lookup_run (fun hnot => hnot.2 hk) _)⟩
  | pass h hstore hclock houtages ih =>
    obtain ⟨m, hm⟩ := ih
    exact ⟨m, hstore ▸ hm.settled, hstore ▸ hm.depend, hstore ▸ hm.sets, hclock, houtages⟩

/-- A store in use with one task. -/
theorem InUse.stored_iff_eq {id : String} (h : InUse w (Function.update (fun _ => none) id (some t)) ds)
    (hid : t.id = id) {d : Task} : Stored w d ↔ d = t := by
  rw [h.settled.documents.stored_iff h.outages, Function.update_apply]
  constructor
  · intro hd
    split at hd
    · exact (Option.some.inj hd).symm
    · cases hd
  · rintro rfl
    exact if_pos hid

/-- A new task is written to a store in use. -/
theorem InUse.withTask (hused : Used w ds) (h : InUse w m ds) (ht : t.Accepted)
    (hhours : Decimal.isFinite t.actualHours = true) :
    Used (withTask w t) ds ∧ InUse (withTask w t) (Function.update m t.id (some t.written)) ds := by
  constructor
  · refine hused.edit (.save t none) ⟨?_, ?_⟩
    · rintro _ _ ⟨⟩
      exact ht
    · rintro _ rfl
      exact hhours
  · obtain ⟨w', hrun, hsettled⟩ := h.settled.save h.outages none ht hhours
    refine h.edit (.save t none) ?_
    rw [show (Edit.save t none).program = do let _ ← Tasks.save t none from rfl, run_discard, hrun]
    exact hsettled

end TaskAutomation.Tasks
