import TaskAutomation.Proofs.Tasks.Owners

/-!
# The sets of clients and parents

* `Relation.Concerns r t` : the task is one of those of a client or a parent;
* `Tasks.run_moves_collects`, `Tasks.run_save_sets` : where a task that moves, or is written, is
  afterwards;
* `Tasks.Grouped s m` : the store holds the documents of the tasks of `m`, and the set of each client
  and each parent has just the ids of its tasks; `Grouped.save` : it stays so if a task that is written
  names the version that it replaces, as the task could not leave the sets of that version otherwise;
* `Tasks.Traced w` : the world comes from an empty store by edits that name what they replace, with
  other programs in between; `Traced.grouped` : its sets are exact.
-/

namespace TaskAutomation.Tasks

open Check Program

variable {s s' : Store} {w : World} {m : String → Option Task} {t : Task} {r : Relation}

namespace Relation

/-- The task is one of the related tasks. -/
def Concerns : Relation → Task → Prop
  | .client c, t => t.clientId = some c
  | .parent p, t => t.parentTaskId = some p
  | .nobody, _ => False

/-- The client or the parent has a name that is not empty. -/
def Named : Relation → Prop
  | .client n | .parent n => n ≠ ""
  | .nobody => True

theorem named_of (client parent : Option String) : (Relation.of client parent).Named := by
  have hnonempty : ∀ {n? : Option String} {n}, n?.filter (fun s => !s.isEmpty) = some n → n ≠ "" := by
    rintro n? n hn rfl
    have := (Option.filter_eq_some_iff.mp hn).2
    simp at this
  unfold Relation.of
  split
  · next hc => exact hnonempty hc
  · next hp => exact hnonempty hp
  · trivial

end Relation

/-! ## Moving between sets -/

/-- Takes a task out of the set that it is no longer in. -/
def leave (id : String) (key : String → Key) (old new : Option String) : Program Unit :=
  match old with
  | some o => if !o.isEmpty && old != new then store (.setRemove (key o) id) else pure ()
  | none => pure ()

/-- Puts a task into the set that it is in now. -/
def join (id : String) (key : String → Key) (new : Option String) : Program Unit :=
  match new with
  | some n => if !n.isEmpty then store (.setAdd (key n) id) else pure ()
  | none => pure ()

theorem move_eq (id : String) (key : String → Key) (old new : Option String) :
    move id key old new = (do leave id key old new; join id key new) := by
  unfold move leave join
  cases old with
  | none => rfl
  | some o =>
    dsimp only
    split <;> rfl

section

variable {key : String → Key} (hkey : Function.Injective key)
include hkey

theorem run_leave (id : String) (old new : Option String) (w : World) :
    ∃ w', (leave id key old new).run w = (.ok (), w') ∧ ∀ {n p}, n ≠ "" →
      w.store.Collects (key n) p →
      w'.store.Collects (key n) fun x => p x ∧ ¬ (x = id ∧ old = some n ∧ new ≠ some n) := by
  have hstay : ∀ {n p}, w.store.Collects (key n) p → ¬ (old = some n ∧ new ≠ some n) →
      w.store.Collects (key n) fun x => p x ∧ ¬ (x = id ∧ old = some n ∧ new ≠ some n) :=
    fun h hnot => h.congr fun x => ⟨fun hp => ⟨hp, fun hx => hnot hx.2⟩, And.left⟩
  unfold leave
  cases old with
  | none => exact ⟨w, rfl, fun _ h => hstay h nofun⟩
  | some o =>
    dsimp only
    split
    · next hcond =>
      rw [Bool.and_eq_true, bne_iff_ne] at hcond
      refine ⟨_, run_store _ _, fun {n p} _ h => ?_⟩
      by_cases hn : o = n
      · subst hn
        refine (h.setRemove w.clock.instant id).congr fun x => and_congr_right fun _ => ?_
        simp [Ne.symm hcond.2]
      · have hother : (Command.setRemove (key o) id).written ≠ some (key n) := by
          simpa [Command.written, hkey.eq_iff] using hn
        exact (hstay h (by simp [hn])).of_lookup_eq (World.lookup_after w hother)
    · next hcond =>
      refine ⟨w, rfl, fun {n p} hn h => hstay h ?_⟩
      rintro ⟨ho, hnew⟩
      cases ho
      exact hcond (by simp [hn, Ne.symm hnew])

theorem run_join (id : String) (new : Option String) (w : World) :
    ∃ w', (join id key new).run w = (.ok (), w') ∧ ∀ {n p}, n ≠ "" →
      w.store.Collects (key n) p →
      w'.store.Collects (key n) fun x => p x ∨ (x = id ∧ new = some n) := by
  have hstay : ∀ {n p}, w.store.Collects (key n) p → new ≠ some n →
      w.store.Collects (key n) fun x => p x ∨ (x = id ∧ new = some n) :=
    fun h hnot => h.congr fun x => ⟨.inl, fun hx => hx.resolve_right fun hx => hnot hx.2⟩
  unfold join
  cases new with
  | none => exact ⟨w, rfl, fun _ h => hstay h nofun⟩
  | some o =>
    dsimp only
    split
    · refine ⟨_, run_store _ _, fun {n p} _ h => ?_⟩
      by_cases hn : o = n
      · subst hn
        exact (h.setAdd w.clock.instant id).congr fun x => by simp
      · have hother : (Command.setAdd (key o) id).written ≠ some (key n) := by
          simpa [Command.written, hkey.eq_iff] using hn
        exact (hstay h (by simp [hn])).of_lookup_eq (World.lookup_after w hother)
    · next hcond =>
      refine ⟨w, rfl, fun {n p} hn h => hstay h ?_⟩
      rintro ⟨⟩
      exact hcond (by simp [hn])

/-- A task that moves is in the set that it is in now, and in the others as before but for the one
that it is said to have been in. -/
theorem run_move_collects (id : String) (old new : Option String) (w : World) :
    ∃ w', (move id key old new).run w = (.ok (), w') ∧ ∀ {n p}, n ≠ "" →
      w.store.Collects (key n) p → w'.store.Collects (key n) fun x =>
        if x = id then new = some n ∨ (p x ∧ old ≠ some n) else p x := by
  obtain ⟨w₁, hleave, hleft⟩ := run_leave hkey id old new w
  obtain ⟨w₂, hjoin, hjoined⟩ := run_join hkey id new w₁
  refine ⟨w₂, ?_, fun {n p} hn h => (hjoined hn (hleft hn h)).congr fun x => ?_⟩
  · rw [move_eq, run_bind_ok hleave, hjoin]
  · by_cases hx : x = id <;> by_cases hnew : new = some n <;> simp [hx, hnew]

end

theorem lookup_move (key : String → Key) {k : Key} (hk : ∀ n, k ≠ key n) (id : String)
    (old new : Option String) {w w' : World} {r : Except Failure Unit}
    (hrun : (move id key old new).run w = (r, w')) : w'.store.slots.lookup k = w.store.slots.lookup k := by
  have hdiscreet : (move id key old new).Within (Call.Discreet fun l => ∃ n, l = key n) :=
    discreet_move id (fun n => ⟨n, rfl⟩) old new
  have hlookup := hdiscreet.touches.lookup_run (fun ⟨n, hn⟩ => hk n hn) w
  rwa [hrun] at hlookup

/-- A task that has moved is one of those that it is related to now, and of those of the replaced
version no more. -/
theorem run_moves_collects (t : Task) (previous : Option Task) (w : World) :
    ∃ w', (moves t previous).run w = (.ok t, w') ∧ ∀ {r key p}, Relation.Named r →
      r.key? = some key → w.store.Collects key p → w'.store.Collects key fun x =>
        if x = t.id then r.Concerns t ∨ (p x ∧ ∀ old ∈ previous, ¬ r.Concerns old) else p x := by
  have hclientKey : Function.Injective Key.taskClient := fun _ _ => Key.taskClient.inj
  have hparentKey : Function.Injective Key.taskParent := fun _ _ => Key.taskParent.inj
  obtain ⟨w₁, hclient, hclients⟩ :=
    run_move_collects hclientKey t.id (previous.bind Task.clientId) t.clientId w
  obtain ⟨w₂, hparent, hparents⟩ :=
    run_move_collects hparentKey t.id (previous.bind Task.parentTaskId) t.parentTaskId w₁
  have hframe₁ : ∀ n, w₁.store.slots.lookup (.taskParent n) = w.store.slots.lookup (.taskParent n) :=
    fun n => lookup_move Key.taskClient (fun _ heq => by cases heq) _ _ _ hclient
  have hframe₂ : ∀ n, w₂.store.slots.lookup (.taskClient n) = w₁.store.slots.lookup (.taskClient n) :=
    fun n => lookup_move Key.taskParent (fun _ heq => by cases heq) _ _ _ hparent
  have hleft : ∀ {f : Task → Option String} {n},
      previous.bind f ≠ some n ↔ ∀ old ∈ previous, f old ≠ some n := by
    intro f n
    cases previous <;> simp
  refine ⟨w₂, ?_, fun {r key p} hnamed hkey h => ?_⟩
  · unfold moves
    rw [run_bind_ok hclient, run_bind_ok hparent, run_pure]
  · cases r with
    | client n =>
      cases hkey
      refine ((hclients hnamed h).of_lookup_eq (hframe₂ n)).congr fun x => ?_
      rw [hleft]
      rfl
    | parent n =>
      cases hkey
      refine (hparents hnamed (h.of_lookup_eq (hframe₁ n))).congr fun x => ?_
      rw [hleft]
      rfl
    | nobody => cases hkey

/-- A task that is written is in its sets, and in those of the version that it is said to replace no
more. -/
theorem run_save_sets (t : Task) (previous : Option Task) (ho : w.outages = []) :
    ∃ w', (save t previous).run w = (.ok t, w') ∧ Saved w.store w'.store t ∧
      ∀ {r key p}, Relation.Named r → r.key? = some key → w.store.Collects key p →
        w'.store.Collects key fun x =>
          if x = t.id then r.Concerns t ∨ (p x ∧ ∀ old ∈ previous, ¬ r.Concerns old) else p x := by
  obtain ⟨w', hrun, hsaved⟩ := run_save t previous ho
  refine ⟨w', hrun, hsaved, fun {r key p} hnamed hkey h => ?_⟩
  obtain ⟨w'', hmoves, hcollects⟩ := run_moves_collects t previous ((documented w t).after (dueCommand t))
  rw [← run_save_moves t previous ho, hrun] at hmoves
  cases hmoves
  -- neither the document nor the indexes of the user are among these sets
  have hother : ((documented w t).after (dueCommand t)).store.slots.lookup key =
      w.store.slots.lookup key := by
    rw [World.lookup_after _ (by rw [written_dueCommand]; cases r <;> cases hkey <;> simp),
      lookup_documented _ _ _ (by cases r <;> cases hkey <;> simp)]
    exact if_neg (by cases r <;> cases hkey <;> simp)
  exact hcollects hnamed hkey (h.of_lookup_eq hother)

/-! ## Exact sets -/

/-- The store holds the tasks of a map, and under the name of each client and each parent there is the
set of the ids of its tasks. All numbers of the tasks are finite. -/
structure Grouped (s : Store) (m : String → Option Task) : Prop where
  documents : Documents s m
  storable : ∀ id t, m id = some t → t.Storable
  sets : ∀ {r key}, Relation.Named r → r.key? = some key →
    s.Collects key fun id => ∃ t, m id = some t ∧ r.Concerns t

theorem grouped_of_empty (h : s.slots = []) : Grouped s fun _ => none where
  documents := (indexed_of_empty h).document
  storable _ _ := nofun
  sets {_ key} _ _ := by
    refine ⟨[], Store.keeps_of_lookup_none (by rw [h]; rfl) rfl, List.nodup_nil, fun id => ?_⟩
    simp

/-- The keys of the documents of tasks and of the sets that tasks are in. -/
def IsGroupKey : Key → Prop
  | .taskDetail _ | .taskClient _ | .taskParent _ => True
  | _ => False

theorem Grouped.of_lookup_eq (h : Grouped s m)
    (heq : ∀ k, IsGroupKey k → s'.slots.lookup k = s.slots.lookup k) : Grouped s' m where
  documents id := (h.documents id).of_lookup_eq (heq _ trivial)
  storable := h.storable
  sets {r key} hnamed hkey := by
    refine (h.sets hnamed hkey).of_lookup_eq (heq key ?_)
    cases r <;> cases hkey <;> trivial

theorem storable_written (h : Decimal.isFinite t.actualHours = true) : t.written.Storable where
  estimatedHours _ hx := (Option.mem_filter_iff.mp hx).2
  actualHours := h
  extra := Value.allFiniteFields_storableFields t.extra

/-- A task that is written over the version that it names is in its sets, and no longer in those of that
version. -/
theorem Grouped.save (h : Grouped w.store m) (ho : w.outages = []) {previous : Option Task}
    (ht : t.Accepted) (hhours : Decimal.isFinite t.actualHours = true)
    (hprevious : ∀ old, m t.id = some old → previous = some old) :
    ∃ w', (Tasks.save t previous).run w = (.ok t, w') ∧
      Grouped w'.store (Function.update m t.id (some t.written)) := by
  obtain ⟨w', hrun, hsaved, hcollects⟩ := run_save_sets t previous ho
  refine ⟨w', hrun, hsaved.documents h.documents (hsaved.document_written ht hhours), fun id t' hm => ?_,
    fun {r key} hnamed hkey => ?_⟩
  · by_cases hid : id = t.id
    · rw [hid, Function.update_self] at hm
      cases hm
      exact storable_written hhours
    · rw [Function.update_of_ne hid] at hm
      exact h.storable id t' hm
  · refine (hcollects hnamed hkey (h.sets hnamed hkey)).congr fun x => ?_
    have hconcerns : r.Concerns t.written ↔ r.Concerns t := by cases r <;> rfl
    by_cases hx : x = t.id
    · subst hx
      simp only [if_true, Function.update_self, Option.some.injEq, exists_eq_left', hconcerns]
      refine or_iff_left ?_
      rintro ⟨⟨old, hold, hrelated⟩, hleft⟩
      exact hleft old (hprevious old hold) hrelated
    · simp only [if_neg hx, Function.update_of_ne hx]

/-- The sets stay exact if what is written names what it replaces, and can be read. -/
def groupBookkeeping : Bookkeeping where
  Holds := Grouped
  Clock now := now.Stamped ∧ now.isNaive = false
  Sound := Task.Accepted
  Fits m previous t :=
    Decimal.isFinite t.actualHours = true ∧ ∀ old, m t.id = some old → previous = some old
  asRead := Task.written
  document h := h.documents
  sound_of_check := @Task.accepted_of_check
  fits_congr h hm := ⟨h.1, fun old hold => h.2 old (hm ▸ hold)⟩
  run_save h ho hsound hfits := h.save ho hsound hfits.1 hfits.2

/-! ## Runs -/

namespace Edit

/-- The edit names a version as what it replaces: a task that is given does so itself, a new task
replaces none, and a change replaces what is stored. -/
def Names : Edit → Task → Prop
  | .save _ previous, old => previous = some old
  | .create _, _ | .createSubtask _ _, _ => False
  | .update _ _, _ | .updateRelated _ _ _ _, _ => True

/-- A task that is given has passed its check, every task that is written can be read back, and the
stored version that it replaces is named. So the id of a new task is fresh. -/
structure Candid (w : World) (e : Edit) : Prop extends Edit.Legible w e where
  names : ∀ t old, e.Writes w t → Stored w old → old.id = t.id → e.Names old

theorem Candid.fits {e : Edit} (he : e.Candid w) (h : Grouped w.store m) (ho : w.outages = [])
    (ht : e.Writes w t) : groupBookkeeping.Fits m (e.replaced m t) t := by
  refine ⟨he.hours t ht, fun old hold => ?_⟩
  have hid := h.documents.id_eq hold
  have hstored : Stored w old := (h.documents.stored_iff ho old).mpr (hid ▸ hold)
  have hnames := he.names t old ht hstored hid
  cases e with
  | save task previous => exact hnames
  | create fields => cases hnames
  | createSubtask parentId fields => cases hnames
  | update id fields => exact hold
  | updateRelated field value except r => exact hold

end Edit

/-- The worlds that edits lead to from an empty store if each of them names what it replaces. Between
edits time may pass, and programs may run that leave the documents of tasks and the sets of clients and
parents alone. -/
inductive Traced : World → Prop where
  | start {w : World} (hstore : w.store.slots = [])
      (hclock : w.clock.Stamped ∧ w.clock.isNaive = false) (houtages : w.outages = []) : Traced w
  | edit {w : World} (h : Traced w) (e : Edit) (he : e.Candid w) : Traced (e.program.run w).2
  | other {w : World} (h : Traced w) {α : Type} (p : Program α)
      (hp : p.Within (Call.Touches fun k => ¬ IsGroupKey k)) : Traced (p.run w).2
  | pass {w w' : World} (h : Traced w) (hstore : w'.store = w.store)
      (hclock : w'.clock.Stamped ∧ w'.clock.isNaive = false) (houtages : w'.outages = []) : Traced w'

/-- After any such edits the sets of clients and parents are exact. -/
theorem Traced.grouped (h : Traced w) : (∃ m, Grouped w.store m) ∧ w.store.SetsOnce ∧
    (w.clock.Stamped ∧ w.clock.isNaive = false) ∧ w.outages = [] := by
  induction h with
  | start hstore hclock houtages =>
    exact ⟨⟨_, grouped_of_empty hstore⟩, Store.setsOnce_of_empty hstore, hclock, houtages⟩
  | edit h e he ih =>
    obtain ⟨⟨m, hm⟩, hsets, hclock, houtages⟩ := ih
    refine ⟨?_, setsOnce_run _ hsets, ?_, ?_⟩
    · exact groupBookkeeping.edit_holds hm hsets houtages hclock he.accepted
        fun t ht => he.fits hm houtages ht
    · rwa [run_clock]
    · rwa [run_outages]
  | other h p hp ih =>
    obtain ⟨⟨m, hm⟩, hsets, hclock, houtages⟩ := ih
    refine ⟨⟨m, hm.of_lookup_eq fun k hk => hp.lookup_run (not_not.mpr hk) _⟩, setsOnce_run _ hsets,
      ?_, ?_⟩
    · rwa [run_clock]
    · rwa [run_outages]
  | pass h hstore hclock houtages ih =>
    obtain ⟨⟨m, hm⟩, hsets, -, -⟩ := ih
    exact ⟨⟨m, hstore ▸ hm⟩, hstore ▸ hsets, hclock, houtages⟩

end TaskAutomation.Tasks
