import TaskAutomation.Proofs.Tasks.Index

/-!
# Edits of the task store

* `Tasks.Bookkeeping` : what a store of tasks is like, and the tasks that may be written over which
  versions for it to stay so; `Tasks.Upkeep` : the same where it does not matter which version is said
  to be replaced; `Tasks.dueUpkeep` : the due indexes are exact;
* `Bookkeeping.updateAll_cases` : what a change of several tasks, one by one, comes to;
* `Tasks.Edit` : an operation that writes tasks, with its arguments; `Edit.Writes` : the tasks that
  it writes; `Edit.replaced` : the versions that it says these replace; `Bookkeeping.edit_holds`,
  `Upkeep.edit_holds` : an edit that writes such tasks leaves such a store;
* `Edit.Allowed` : these tasks hold finite numbers only, and none of them takes a stored task from
  its owner; `Tasks.edit_indexed` : such an edit leaves exact due indexes;
* `Tasks.Reached w` : the world comes from an empty store by edits, with any time in between;
  `Reached.indexed` : all of them together leave exact due indexes.
-/

namespace TaskAutomation.Tasks

open Check Program

variable {w : World} {m : String → Option Task}

/-! ## Reading -/

/-- A stored task is read back, and reading changes nothing. -/
theorem Documents.run_get (h : Documents w.store m) (ho : w.outages = []) (id : String) :
    (get id).run w = (.ok (m id), w) := by
  have hdocument := h id
  cases hm : m id with
  | none =>
    rw [hm] at hdocument
    have hcell : ((Command.get (.taskDetail id)).run w.clock.instant w.store).1 = none := by
      show w.store.cell? w.clock.instant (.taskDetail id) = none
      unfold Store.cell? Store.find? Store.slot?
      rw [show w.store.slots.lookup (.taskDetail id) = none from hdocument]
      rfl
    unfold get
    rw [Operation.run_guard ho, run_bind_ok (run_read rfl w), hcell]
    rfl
  | some t =>
    rw [hm] at hdocument
    obtain ⟨-, -, v, hcheck, hlookup⟩ := hdocument
    rw [run_get_of_keeps ho hlookup, hcheck]
    rfl

/-- The task is stored: it is what its id gives. -/
def Stored (w : World) (t : Task) : Prop := ((get t.id).run w).1 = .ok (some t)

theorem Documents.stored_iff (h : Documents w.store m) (ho : w.outages = []) (t : Task) :
    Stored w t ↔ m t.id = some t := by
  unfold Stored
  rw [h.run_get ho]
  exact ⟨Except.ok.inj, congrArg Except.ok⟩

theorem stored_iff (h : Indexed w.store m) (ho : w.outages = []) (t : Task) :
    Stored w t ↔ m t.id = some t := Documents.stored_iff h.document ho t

/-! ## Upkeep -/

/-- What a store of tasks is like, and the tasks that may be written for it to stay so. -/
structure Upkeep where
  /-- The store has the tasks of a map, and its indexes are as they should be. -/
  Holds : Store → (String → Option Task) → Prop
  /-- The time may be now. -/
  Clock : Moment → Prop
  /-- The task may have passed its check. -/
  Sound : Task → Prop
  /-- The task may be written beside those of the map. -/
  Fits : (String → Option Task) → Task → Prop
  /-- A task that was written, as it is read. -/
  asRead : Task → Task
  document : ∀ {s m}, Holds s m → Documents s m
  sound_of_check : ∀ {now v t}, Clock now → Task.check { now } v = .ok t → Sound t
  fits_congr : ∀ {m m' t}, Fits m t → m' t.id = m t.id → Fits m' t
  run_save : ∀ {w m t} (previous : Option Task), Holds w.store m → w.outages = [] → Sound t →
    Fits m t → ∃ w', (save t previous).run w = (.ok t, w') ∧
      Holds w'.store (Function.update m t.id (some (asRead t)))

/-- What a store of tasks is like, and the tasks that may be written over a version, or over none, for
it to stay so. -/
structure Bookkeeping where
  /-- The store has the tasks of a map, and its indexes are as they should be. -/
  Holds : Store → (String → Option Task) → Prop
  /-- The time may be now. -/
  Clock : Moment → Prop
  /-- The task may have passed its check. -/
  Sound : Task → Prop
  /-- The task may be written beside those of the map, if this is said to be what it replaces. -/
  Fits : (String → Option Task) → Option Task → Task → Prop
  /-- A task that was written, as it is read. -/
  asRead : Task → Task
  document : ∀ {s m}, Holds s m → Documents s m
  sound_of_check : ∀ {now v t}, Clock now → Task.check { now } v = .ok t → Sound t
  fits_congr : ∀ {m m' previous t}, Fits m previous t → m' t.id = m t.id → Fits m' previous t
  run_save : ∀ {w m previous t}, Holds w.store m → w.outages = [] → Sound t → Fits m previous t →
    ∃ w', (save t previous).run w = (.ok t, w') ∧
      Holds w'.store (Function.update m t.id (some (asRead t)))

/-- Upkeep takes any version for the one that is replaced. -/
def Upkeep.bookkeeping (K : Upkeep) : Bookkeeping where
  Holds := K.Holds
  Clock := K.Clock
  Sound := K.Sound
  Fits m _ t := K.Fits m t
  asRead := K.asRead
  document := K.document
  sound_of_check := K.sound_of_check
  fits_congr := K.fits_congr
  run_save := K.run_save _

/-- The task holds finite numbers only, and the stored task that it replaces is of the same user. -/
def Fits (m : String → Option Task) (t : Task) : Prop :=
  t.AllFinite ∧ ∀ old, m t.id = some old → old.userId = t.userId

/-- Due indexes stay exact if owners stay. -/
def dueUpkeep : Upkeep where
  Holds := Indexed
  Clock := Moment.Shown
  Sound := Task.WellFormed
  Fits := Fits
  asRead := Task.reread
  document h := h.document
  sound_of_check hclock hcheck := Task.wellFormed_of_check (s := { now := _ }) hclock hcheck
  fits_congr h hm := ⟨h.1, fun old hold => h.2 old (hm ▸ hold)⟩
  run_save previous h ho hsound hfits := save_indexed previous h ho hsound hfits.1 hfits.2

/-! ## Writing what has been checked -/

/-- A task is checked and, if it passes, written. -/
def saveChecked (c : Checked Task) (previous : Option Task) : Program Task := do
  let task ← ofChecked "Task" c
  save task previous

/-- What is answered is what was checked. -/
theorem answer_saveChecked (ho : w.outages = []) (c : Checked Task) (previous : Option Task) :
    ((saveChecked c previous).run w).1 = Failure.ofChecked "Task" c := by
  cases c with
  | issues found => rfl
  | ok t =>
    obtain ⟨w', hrun, -⟩ := run_save_document t previous ho
    exact congrArg Prod.fst hrun

/-- A changed task keeps its id. -/
theorem id_of_revise {s : Setting} {old t : Task} {fields : Fields}
    (h : revise s old fields = .ok t) : t.id = old.id := by
  obtain ⟨f, hf, hid, -⟩ := Task.parts_of_check h
  cases hf
  obtain ⟨v, hv, ht⟩ := get?_of_required hid
  rw [Fields.get?_put_ne _ _ (by decide), Fields.get?_put_self] at hv
  cases hv
  exact (Checked.ok.inj ht).symm

theorem Documents.run_update (h : Documents w.store m) (ho : w.outages = []) (id : String)
    (fields : Fields) : (update id fields).run w = match m id with
      | none => (.error (.absentKey id), w)
      | some old => (saveChecked (revise { now := w.clock } old fields) (some old)).run w := by
  unfold update
  rw [Operation.run_guard ho, run_bind_ok (h.run_get ho id)]
  cases m id with
  | none => rfl
  | some old => exact run_bind_ok (run_setting w)

/-- What a change answers depends on the stored task and the clock only. -/
theorem Documents.answer_update (h : Documents w.store m) (ho : w.outages = []) (id : String)
    (fields : Fields) : ((update id fields).run w).1 = match m id with
      | none => .error (.absentKey id)
      | some old => Failure.ofChecked "Task" (revise { now := w.clock } old fields) := by
  rw [h.run_update ho]
  cases m id with
  | none => rfl
  | some old => exact answer_saveChecked ho _ _

/-- A task that a change answers is a revision of the stored one. -/
theorem Documents.revise_of_update (h : Documents w.store m) (ho : w.outages = []) {id : String}
    {fields : Fields} {t : Task} (ht : ((update id fields).run w).1 = .ok t) :
    ∃ old, m id = some old ∧ revise { now := w.clock } old fields = .ok t := by
  rw [h.answer_update ho] at ht
  cases hm : m id with
  | none =>
    rw [hm] at ht
    cases ht
  | some old =>
    rw [hm] at ht
    refine ⟨old, rfl, ?_⟩
    cases hrevise : revise { now := w.clock } old fields with
    | issues found => simp [hrevise, Failure.ofChecked] at ht
    | ok t' =>
      simp only [hrevise] at ht
      cases ht
      rfl

/-! ## Related tasks -/

/-- The members of a set but one, in order. -/
def targets (s : Store) (now : Int) (key : Key) (except : String) : List String :=
  ((s.members now key).mergeSort fun a b => decide (a ≤ b)).filter (· != except)

theorem mem_targets {s : Store} {now : Int} {key : Key} {except id : String} :
    id ∈ targets s now key except ↔ id ∈ s.members now key ∧ id ≠ except := by
  unfold targets
  rw [List.mem_filter, List.mem_mergeSort, bne_iff_ne]

theorem nodup_targets {s : Store} (h : s.SetsOnce) (now : Int) (key : Key) (except : String) :
    (targets s now key except).Nodup :=
  ((List.mergeSort_perm _ _).nodup_iff.mpr (h.members now key)).filter _

theorem run_updateRelated (ho : w.outages = []) {r : Relation} {key : Key} (hkey : r.key? = some key)
    (field : String) (value : Value) (except : String) :
    (updateRelated field value except r).run w =
      (each (fun id => do let _ ← update id [(field, value)]; return id)
        (targets w.store w.clock.instant key except)).run w := by
  unfold updateRelated
  rw [Operation.run_guard ho, hkey]
  exact run_bind_ok (run_read rfl w)

theorem run_updateRelated_none (ho : w.outages = []) {r : Relation} (hkey : r.key? = none)
    (field : String) (value : Value) (except : String) :
    (updateRelated field value except r).run w = (.ok [], w) := by
  unfold updateRelated
  rw [Operation.run_guard ho, hkey]
  rfl

namespace Bookkeeping

variable (K : Bookkeeping)

/-- What is checked and written is kept, or nothing has changed. -/
theorem saveChecked_cases (h : K.Holds w.store m) (ho : w.outages = []) {c : Checked Task}
    {previous : Option Task} (hsound : ∀ t, c = .ok t → K.Sound t)
    (hfits : ∀ t, ((saveChecked c previous).run w).1 = .ok t → K.Fits m previous t) :
    (∃ f, (saveChecked c previous).run w = (.error f, w)) ∨
      ∃ t w', c = .ok t ∧ (saveChecked c previous).run w = (.ok t, w')
        ∧ K.Holds w'.store (Function.update m t.id (some (K.asRead t))) := by
  have hanswer := answer_saveChecked ho c previous
  cases c with
  | issues found => exact .inl ⟨_, rfl⟩
  | ok t =>
    obtain ⟨w', hrun, hholds⟩ := K.run_save h ho (hsound t rfl) (hfits t hanswer)
    exact .inr ⟨t, w', rfl, hrun, hholds⟩

/-! ## Single edits -/

/-- A new task is kept. -/
theorem create_holds (h : K.Holds w.store m) (ho : w.outages = []) (hclock : K.Clock w.clock)
    {fields : Fields} (hfits : ∀ t, ((create fields).run w).1 = .ok t → K.Fits m none t) :
    ∃ m', K.Holds ((create fields).run w).2.store m' := by
  have hrest : ∀ (id : Value) (w' : World), w'.store = w.store → w'.clock = w.clock →
      w'.outages = [] →
      (∀ t, ((saveChecked (Task.check { now := w'.clock } (.obj (fields.put "id" id))) none).run
        w').1 = .ok t → K.Fits m none t) →
      ∃ m', K.Holds ((saveChecked (Task.check { now := w'.clock } (.obj (fields.put "id" id)))
        none).run w').2.store m' := by
    intro id w' hstore hclock' ho' hfits'
    rw [← hstore] at h
    rw [← hclock'] at hclock
    rcases K.saveChecked_cases h ho' (fun t ht => K.sound_of_check hclock ht) hfits' with
      ⟨f, hrun⟩ | ⟨t, w'', -, hrun, hholds⟩
    · rw [hrun]
      exact ⟨m, h⟩
    · rw [hrun]
      exact ⟨_, hholds⟩
  unfold create at hfits ⊢
  rw [Operation.run_guard ho] at hfits ⊢
  cases hid : (fields.get? "id").filter Value.truthy with
  | some id =>
    simp only [hid] at hfits ⊢
    exact hrest id w rfl rfl ho hfits
  | none =>
    simp only [hid] at hfits ⊢
    exact hrest _ { w with counters := tally .task w.counters } rfl rfl ho hfits

theorem createSubtask_holds (h : K.Holds w.store m) (ho : w.outages = []) (hclock : K.Clock w.clock)
    {parentId : String} {fields : Fields}
    (hfits : ∀ t, ((createSubtask parentId fields).run w).1 = .ok t → K.Fits m none t) :
    ∃ m', K.Holds ((createSubtask parentId fields).run w).2.store m' := by
  unfold createSubtask at hfits ⊢
  rw [Operation.run_guard ho] at hfits ⊢
  exact K.create_holds h ho hclock hfits

/-- A stored task that is changed is kept as changed, or nothing has changed. -/
theorem update_cases (h : K.Holds w.store m) (ho : w.outages = []) (hclock : K.Clock w.clock)
    {id : String} {fields : Fields}
    (hfits : ∀ t, ((update id fields).run w).1 = .ok t → K.Fits m (m id) t) :
    (∃ f, (update id fields).run w = (.error f, w)) ∨
      ∃ t w', (update id fields).run w = (.ok t, w') ∧
        K.Holds w'.store (Function.update m id (some (K.asRead t))) := by
  rw [(K.document h).run_update ho] at hfits ⊢
  cases hm : m id with
  | none => exact .inl ⟨_, rfl⟩
  | some old =>
    simp only [hm] at hfits ⊢
    rcases K.saveChecked_cases h ho (fun t ht => K.sound_of_check hclock ht) hfits with
      hfail | ⟨t, w', hrevise, hrun, hholds⟩
    · exact .inl hfail
    · have hid := (id_of_revise hrevise).trans ((K.document h).id_eq hm)
      rw [hid] at hholds
      exact .inr ⟨t, w', hrun, hholds⟩

/-! ## Changing several tasks -/

/-- Different tasks are changed one by one: each comes to what it would alone, or one of them fails
and those behind it stay as they were. -/
theorem updateAll_cases {ids : List String} {fields : Fields} (h : K.Holds w.store m)
    (ho : w.outages = []) (hclock : K.Clock w.clock) (hids : ids.Nodup)
    (hfits : ∀ id ∈ ids, ∀ t, ((update id fields).run w).1 = .ok t → K.Fits m (m id) t) :
    ∃ r w' m', (each (fun id => do let _ ← update id fields; return id) ids).run w = (r, w')
      ∧ K.Holds w'.store m' ∧ (∀ id ∉ ids, m' id = m id)
      ∧ ((r = .ok ids ∧
          ∀ id ∈ ids, ∃ t, ((update id fields).run w).1 = .ok t ∧ m' id = some (K.asRead t))
        ∨ ∃ f, r = .error f ∧ ∃ id ∈ ids, ((update id fields).run w).1 = .error f) := by
  induction ids generalizing w m with
  | nil => exact ⟨.ok [], w, m, rfl, h, fun _ _ => rfl, .inl ⟨rfl, by simp⟩⟩
  | cons id rest ih =>
    obtain ⟨hid, hrest⟩ := List.nodup_cons.mp hids
    rcases K.update_cases h ho hclock (hfits id List.mem_cons_self) with ⟨f, hrun⟩ | ⟨t, w₁, hrun, h₁⟩
    · refine ⟨.error f, w, m, ?_, h, fun _ _ => rfl, .inr ⟨f, rfl, id, List.mem_cons_self, ?_⟩⟩
      · rw [each, run_bind, run_bind, hrun]
      · rw [hrun]
    · have hclock₁ : w₁.clock = w.clock := clock_of_run hrun
      have ho₁ : w₁.outages = [] := (outages_of_run hrun).trans ho
      -- the tasks that are left are as they were, and so is what changing them answers
      have hsame : ∀ id' ∈ rest, ((update id' fields).run w₁).1 = ((update id' fields).run w).1 ∧
          Function.update m id (some (K.asRead t)) id' = m id' := by
        intro id' hid'
        have hm := Function.update_of_ne (fun heq : id' = id => hid (heq ▸ hid')) (some (K.asRead t)) m
        rw [(K.document h₁).answer_update ho₁, (K.document h).answer_update ho, hm, hclock₁]
        exact ⟨rfl, rfl⟩
      have hleft : ∀ id' ∈ rest, ∀ t', ((update id' fields).run w₁).1 = .ok t' →
          K.Fits (Function.update m id (some (K.asRead t)))
            (Function.update m id (some (K.asRead t)) id') t' := by
        intro id' hid' t' ht'
        obtain ⟨hanswer, hm⟩ := hsame id' hid'
        rw [hanswer] at ht'
        obtain ⟨old, hold, hrevise⟩ := (K.document h).revise_of_update ho ht'
        have hid₁ : t'.id = id' := (id_of_revise hrevise).trans ((K.document h).id_eq hold)
        rw [hm]
        exact K.fits_congr (hfits id' (List.mem_cons_of_mem _ hid') t' ht') (by rw [hid₁, hm])
      obtain ⟨r, w', m', hrun', hholds, hother, hcases⟩ := ih h₁ ho₁ (hclock₁ ▸ hclock) hrest hleft
      have hm' : m' id = some (K.asRead t) := (hother id hid).trans (Function.update_self _ _ _)
      have hall : (each (fun id => do let _ ← update id fields; return id) (id :: rest)).run w =
          (r.map (id :: ·), w') := by
        rw [each, run_bind_ok (run_bind_ok hrun), run_bind, hrun']
        cases r <;> rfl
      refine ⟨_, w', m', hall, hholds, fun id' hid' => ?_, ?_⟩
      · obtain ⟨hne, hmem⟩ := not_or.mp (List.mem_cons.not.mp hid')
        exact (hother id' hmem).trans (Function.update_of_ne hne _ _)
      · rcases hcases with ⟨rfl, hdone⟩ | ⟨f, rfl, id', hid', hfail⟩
        · refine .inl ⟨rfl, List.forall_mem_cons.mpr ⟨⟨t, by rw [hrun], hm'⟩, fun id' hid' => ?_⟩⟩
          rw [← (hsame id' hid').1]
          exact hdone id' hid'
        · rw [(hsame id' hid').1] at hfail
          exact .inr ⟨f, rfl, id', List.mem_cons_of_mem _ hid', hfail⟩

end Bookkeeping

/-! ## Runs -/

/-- An operation that writes tasks. -/
inductive Edit where
  | save (task : Task) (previous : Option Task)
  | create (fields : Fields)
  | createSubtask (parentId : String) (fields : Fields)
  | update (id : String) (fields : Fields)
  | updateRelated (field : String) (value : Value) (except : String) (r : Relation)

namespace Edit

/-- The operation; what it answers is of no account. -/
def program : Edit → Program Unit
  | .save task previous => do let _ ← Tasks.save task previous
  | .create fields => do let _ ← Tasks.create fields
  | .createSubtask parentId fields => do let _ ← Tasks.createSubtask parentId fields
  | .update id fields => do let _ ← Tasks.update id fields
  | .updateRelated field value except r => do let _ ← Tasks.updateRelated field value except r

theorem discreet_program (e : Edit) : e.program.Within (Call.Discreet IsRecord) := by
  cases e with
  | save task previous => exact .bind (discreet_save task previous) fun _ => .done _
  | create fields => exact .bind (discreet_create fields) fun _ => .done _
  | createSubtask parentId fields =>
    exact .bind (discreet_createSubtask parentId fields) fun _ => .done _
  | update id fields => exact .bind (discreet_update id fields) fun _ => .done _
  | updateRelated field value except r =>
    exact .bind (discreet_updateRelated field value except r) fun _ => .done _

/-- The tasks that the operation writes. Each of the related tasks is changed as it would be
alone. -/
def Writes (w : World) : Edit → Task → Prop
  | .save task _, t => t = task
  | .create fields, t => ((Tasks.create fields).run w).1 = .ok t
  | .createSubtask parentId fields, t => ((Tasks.createSubtask parentId fields).run w).1 = .ok t
  | .update id fields, t => ((Tasks.update id fields).run w).1 = .ok t
  | .updateRelated field value except r, t => ∃ key ∈ r.key?,
    ∃ id ∈ w.store.members w.clock.instant key, id ≠ except ∧
      ((Tasks.update id [(field, value)]).run w).1 = .ok t

/-- The version that a task is said to replace: what is given, none for a new task, and the stored one
for a task that is changed. -/
def replaced (m : String → Option Task) : Edit → Task → Option Task
  | .save _ previous, _ => previous
  | .create _, _ | .createSubtask _ _, _ => none
  | .update _ _, t | .updateRelated _ _ _ _, t => m t.id

/-- A task that is given has passed its check, and every task that is written holds finite numbers
only and keeps the owner that its stored version has. -/
structure Allowed (w : World) (e : Edit) : Prop where
  wellFormed : ∀ t previous, e = .save t previous → t.WellFormed
  finite : ∀ t, e.Writes w t → t.AllFinite
  owner : ∀ t old, e.Writes w t → Stored w old → old.id = t.id → old.userId = t.userId

theorem Allowed.fits {e : Edit} (he : e.Allowed w) (h : Indexed w.store m) (ho : w.outages = [])
    {t : Task} (ht : e.Writes w t) : Fits m t := by
  refine ⟨he.finite t ht, fun old hold => ?_⟩
  have hid := h.id_eq hold
  exact he.owner t old ht ((stored_iff h ho old).mpr (hid ▸ hold)) hid

end Edit

/-- The worlds that edits lead to from an empty store. Between edits time may pass, and all but the
store may change. -/
inductive Reached : World → Prop where
  | start {w : World} (hstore : w.store.slots = []) (hclock : w.clock.Shown)
      (houtages : w.outages = []) : Reached w
  | edit {w : World} (h : Reached w) (e : Edit) (he : e.Allowed w) : Reached (e.program.run w).2
  | pass {w w' : World} (h : Reached w) (hstore : w'.store = w.store) (hclock : w'.clock.Shown)
      (houtages : w'.outages = []) : Reached w'

/-- An edit that writes tasks that may be written leaves a store as it should be. -/
theorem Bookkeeping.edit_holds (K : Bookkeeping) (h : K.Holds w.store m) (hsets : w.store.SetsOnce)
    (ho : w.outages = []) (hclock : K.Clock w.clock) {e : Edit}
    (hsound : ∀ t previous, e = .save t previous → K.Sound t)
    (hfits : ∀ t, e.Writes w t → K.Fits m (e.replaced m t) t) :
    ∃ m', K.Holds (e.program.run w).2.store m' := by
  -- a task that is changed replaces the stored one of its id
  have hupdate : ∀ {id fields t}, ((update id fields).run w).1 = .ok t → K.Fits m (m t.id) t →
      K.Fits m (m id) t := by
    intro id fields t ht hfits
    obtain ⟨old, hold, hrevise⟩ := (K.document h).revise_of_update ho ht
    rwa [id_of_revise hrevise, (K.document h).id_eq hold] at hfits
  cases e with
  | save task previous =>
    have hfits : K.Fits m previous task := hfits task rfl
    obtain ⟨w', hrun, hholds⟩ := K.run_save h ho (hsound task previous rfl) hfits
    rw [show (Edit.save task previous).program = do let _ ← save task previous from rfl, run_discard,
      hrun]
    exact ⟨_, hholds⟩
  | create fields =>
    rw [show (Edit.create fields).program = do let _ ← create fields from rfl, run_discard]
    exact K.create_holds h ho hclock hfits
  | createSubtask parentId fields =>
    rw [show (Edit.createSubtask parentId fields).program =
      do let _ ← createSubtask parentId fields from rfl, run_discard]
    exact K.createSubtask_holds h ho hclock hfits
  | update id fields =>
    rw [show (Edit.update id fields).program = do let _ ← update id fields from rfl, run_discard]
    rcases K.update_cases h ho hclock fun t ht => hupdate ht (hfits t ht) with
      ⟨f, hrun⟩ | ⟨t, w', hrun, hholds⟩
    · rw [hrun]
      exact ⟨m, h⟩
    · rw [hrun]
      exact ⟨_, hholds⟩
  | updateRelated field value except r =>
    rw [show (Edit.updateRelated field value except r).program =
      do let _ ← updateRelated field value except r from rfl, run_discard]
    cases hkey : r.key? with
    | none =>
      rw [run_updateRelated_none ho hkey]
      exact ⟨m, h⟩
    | some key =>
      rw [run_updateRelated ho hkey]
      obtain ⟨r', w', m', hrun, hholds, -⟩ := K.updateAll_cases h ho hclock
        (nodup_targets hsets w.clock.instant key except) fun id hid t ht => by
          obtain ⟨hmem, hne⟩ := mem_targets.mp hid
          exact hupdate ht (hfits t ⟨key, hkey, id, hmem, hne, ht⟩)
      rw [hrun]
      exact ⟨m', hholds⟩

theorem Upkeep.edit_holds (K : Upkeep) (h : K.Holds w.store m) (hsets : w.store.SetsOnce)
    (ho : w.outages = []) (hclock : K.Clock w.clock) {e : Edit}
    (hsound : ∀ t previous, e = .save t previous → K.Sound t)
    (hfits : ∀ t, e.Writes w t → K.Fits m t) : ∃ m', K.Holds (e.program.run w).2.store m' :=
  K.bookkeeping.edit_holds h hsets ho hclock hsound hfits

/-- An edit leaves a store whose due indexes are exact. -/
theorem edit_indexed (h : Indexed w.store m) (hsets : w.store.SetsOnce) (ho : w.outages = [])
    (hclock : w.clock.Shown) {e : Edit} (he : e.Allowed w) :
    ∃ m', Indexed (e.program.run w).2.store m' :=
  dueUpkeep.edit_holds h hsets ho hclock he.wellFormed fun _ ht => he.fits h ho ht

/-- After any edits the due indexes are exact. -/
theorem Reached.indexed (h : Reached w) :
    (∃ m, Indexed w.store m) ∧ w.store.SetsOnce ∧ w.clock.Shown ∧ w.outages = [] := by
  induction h with
  | start hstore hclock houtages =>
    exact ⟨⟨_, indexed_of_empty hstore⟩, Store.setsOnce_of_empty hstore, hclock, houtages⟩
  | edit h e he ih =>
    obtain ⟨⟨m, hm⟩, hsets, hclock, houtages⟩ := ih
    refine ⟨edit_indexed hm hsets houtages hclock he, setsOnce_run _ hsets, ?_, ?_⟩
    · rwa [run_clock]
    · rwa [run_outages]
  | pass h hstore hclock houtages ih =>
    obtain ⟨⟨m, hm⟩, hsets, -, -⟩ := ih
    exact ⟨⟨m, hstore ▸ hm⟩, hstore ▸ hsets, hclock, houtages⟩

end TaskAutomation.Tasks
