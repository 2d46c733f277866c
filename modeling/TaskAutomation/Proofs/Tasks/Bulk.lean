import TaskAutomation.Proofs.Tasks.Handover
import TaskAutomation.Proofs.Tasks.Related

/-!
# Setting one field of related tasks

* `Tasks.RelatedField` : the fields that can be set for all related tasks together; `RelatedField.set` :
  what a value makes of a task, or the issues with it;
* `Tasks.revise_field` : a change of one such field of a stored task comes to just this, and whether it
  fails depends on the value alone;
* `Tasks.Rewritten` : the tasks of some ids are changed, and all others are as they were;
* `Tasks.updateRelated_exact` : after any edits that name what they replace, an update of related tasks
  concerns just these, in order, and does what it should to each of them or nothing at all;
* `Tasks.emptied_by_update` : an infinite value passes its check, and the field is null afterwards.
-/

namespace TaskAutomation

open Check Program

/-- The task with the time of its last change. -/
def Task.changedAt (t : Task) (now : Moment) : Task := { t with updatedAt := now }

namespace Tasks

variable {s : Setting} {w : World} {m : String → Option Task} {t : Task}

/-- A field that can be set for all related tasks. -/
inductive RelatedField where
  | status
  | priority
  | tag
  | dueDate
  | estimatedHours
  deriving DecidableEq, Repr

namespace RelatedField

def name : RelatedField → String
  | .status => "status"
  | .priority => "priority"
  | .tag => "tag"
  | .dueDate => "due_date"
  | .estimatedHours => "estimated_hours"

/-- What a value makes of a task when the field is set to it: the field has the value as its check gives
it, and the rest of the task is as it was. -/
def set (x : RelatedField) (s : Setting) (v : Value) : Checked (Task → Task) :=
  match x with
  | .status => (fun a t => { t with status := a }) <$> TaskStatus.check s v
  | .priority => (fun a t => { t with priority := a }) <$> TaskPriority.check s v
  | .tag => (fun a t => { t with tag := a }) <$> nullable text s v
  | .dueDate => (fun a t => { t with dueDate := a }) <$> nullable momentInUtc s v
  | .estimatedHours =>
    (fun a t => { t with estimatedHours := a }) <$> nullable (boundedNumber { least := some 0 }) s v

/-- These are the fields that an action may name. -/
theorem mem_relatedFields {field : String} :
    field ∈ relatedFields ↔ ∃ x : RelatedField, x.name = field := by
  constructor
  · intro h
    simp only [relatedFields, List.mem_cons, List.not_mem_nil, or_false] at h
    rcases h with rfl | rfl | rfl | rfl | rfl
    exacts [⟨.status, rfl⟩, ⟨.priority, rfl⟩, ⟨.tag, rfl⟩, ⟨.dueDate, rfl⟩, ⟨.estimatedHours, rfl⟩]
  · rintro ⟨x, rfl⟩
    cases x <;> decide

end RelatedField

/-! ## One task -/

theorem optional_put_self {α : Type} {f : Fields} {name : String} {v : Value} {absent : α}
    {check : Checker α} :
    optional s (Fields.put f name v) name absent check = (check s v).under (.field name) := by
  unfold Check.optional
  rw [Fields.get?_put_self]

/-- The fields of a task with one of them put in are checked as the task with the field set. -/
theorem ofFields_put (hwell : t.WellFormed) (hreread : t.reread = t) (x : RelatedField) (v : Value) :
    Task.ofFields s (Fields.put t.fields x.name v) =
      (fun change => change t) <$> (x.set s v).under (.field x.name) := by
  have hne : ∀ {name}, name ≠ x.name → (Fields.put t.fields x.name v).get? name = t.fields.get? name :=
    fun h => Fields.get?_put_ne _ _ h
  have hextra : others Task.ownFields (Fields.put t.fields x.name v) = Value.storableFields t.extra := by
    rw [Task.others_put (by cases x <;> decide)]
    exact Task.others_ownFields _ rfl hwell.storable_extra
  rw [Task.ofFields_of_get? hwell s (fun name hname => hne ?_) hextra, hreread]
  · have hstatus : "status" ≠ x.name →
        optional s (Fields.put t.fields x.name v) "status" .pending TaskStatus.check = .ok t.status :=
      fun h => optional_of_get? ((hne h).trans rfl) (Task.status_check s t.status)
    have hpriority : "priority" ≠ x.name →
        optional s (Fields.put t.fields x.name v) "priority" .medium TaskPriority.check =
          .ok t.priority :=
      fun h => optional_of_get? ((hne h).trans rfl) (Task.priority_check s t.priority)
    have htag : "tag" ≠ x.name →
        optional? s (Fields.put t.fields x.name v) "tag" text = .ok t.tag :=
      fun h => Task.optional?_text ((hne h).trans rfl)
    have hdue : "due_date" ≠ x.name →
        optional? s (Fields.put t.fields x.name v) "due_date" momentInUtc = .ok t.dueDate :=
      fun h => Task.optional?_dueDate ((hne h).trans rfl) hwell.dueDate
    have hhours : "estimated_hours" ≠ x.name →
        optional? s (Fields.put t.fields x.name v) "estimated_hours"
          (boundedNumber { least := some 0 }) = .ok t.estimatedHours :=
      fun h => Task.optional?_number ((hne h).trans rfl) hwell.estimatedHours
    unfold RelatedField.set
    cases x with
    | status =>
      rw [hpriority (by decide), htag (by decide), hdue (by decide), hhours (by decide)]
      simp only [RelatedField.name, optional_put_self]
      cases TaskStatus.check s v <;> rfl
    | priority =>
      rw [hstatus (by decide), htag (by decide), hdue (by decide), hhours (by decide)]
      simp only [RelatedField.name, optional_put_self]
      cases TaskPriority.check s v <;> rfl
    | tag =>
      rw [hstatus (by decide), hpriority (by decide), hdue (by decide), hhours (by decide)]
      simp only [RelatedField.name, optional?, optional_put_self]
      cases nullable text s v <;> rfl
    | dueDate =>
      rw [hstatus (by decide), hpriority (by decide), htag (by decide), hhours (by decide)]
      simp only [RelatedField.name, optional?, optional_put_self]
      cases nullable momentInUtc s v <;> rfl
    | estimatedHours =>
      rw [hstatus (by decide), hpriority (by decide), htag (by decide), hdue (by decide)]
      simp only [RelatedField.name, optional?, optional_put_self]
      cases nullable (boundedNumber { least := some 0 }) s v <;> rfl
  · rintro rfl
    exact hname (by cases x <;> decide)

/-- What a value makes of a task leaves its other fields, and does not depend on them. -/
theorem set_keeps {x : RelatedField} {v : Value} {change : Task → Task} (h : x.set s v = .ok change)
    (t : Task) : (change t).id = t.id ∧ (change t).actualHours = t.actualHours ∧
      (change t).extra = t.extra := by
  unfold RelatedField.set at h
  cases x <;> (obtain ⟨a, -, rfl⟩ := Checked.map_eq_ok.mp h; exact ⟨rfl, rfl, rfl⟩)

theorem set_changedAt {x : RelatedField} {v : Value} {change : Task → Task}
    (h : x.set s v = .ok change) (t : Task) (now : Moment) :
    change (t.changedAt now) = (change t).changedAt now := by
  unfold RelatedField.set at h
  cases x <;> (obtain ⟨a, -, rfl⟩ := Checked.map_eq_ok.mp h; rfl)

/-- A stored task is its document as it is read at any time, so its moments are in whole minutes from
UTC. -/
theorem Documents.stamped (h : Documents w.store m) {id : String} (hm : m id = some t)
    (hs : s.now.Stamped ∧ s.now.isNaive = false) :
    t.WellFormed ∧ (t.createdAt.Stamped ∧ t.createdAt.isNaive = false) := by
  have hdocument := h id
  rw [hm] at hdocument
  obtain ⟨-, hwell, v, hcheck, -⟩ := hdocument
  exact ⟨hwell, (Task.stamped_of_check hs (hcheck s)).1⟩

/-- One field of a stored task is changed: the task has the field set, at the time that it is now, or the
value has issues. -/
theorem Documents.revise_field (h : Documents w.store m) {id : String} (hm : m id = some t)
    (hstorable : t.Storable) (hs : s.now.Stamped ∧ s.now.isNaive = false) (x : RelatedField) (v : Value) :
    revise s t [(x.name, v)] =
      (fun change => (change t).changedAt s.now) <$> (x.set s v).under (.field x.name) := by
  obtain ⟨hwell, hcreated⟩ := h.stamped hm hs
  have hwell' : (t.changedAt s.now).WellFormed :=
    { hwell with updatedAt := hs.1.toShown }
  have hreread := Task.reread_eq (t := t.changedAt s.now) hcreated hs hstorable.extra
  have hfields : revise s t [(x.name, v)] =
      Task.ofFields s (Fields.put (t.changedAt s.now).fields x.name v) := by
    cases x <;> rfl
  rw [hfields, ofFields_put hwell' hreread]
  -- none of these fields is the time of the last change, so it does not matter which is set first
  cases hset : x.set s v with
  | issues found => rfl
  | ok change => exact congrArg Checked.ok (set_changedAt hset t s.now)

/-! ## All of them -/

/-- The tasks of some ids are changed as far as they can be stored, and all others are as they were. -/
structure Rewritten (w w' : World) (ids : List String) (change : Task → Task) : Prop where
  written : ∀ t, Stored w t → t.id ∈ ids → Stored w' (change t).written
  exact : ∀ t, Stored w t → t.id ∈ ids → (Stored w' (change t) ↔
    ∀ x ∈ (change t).estimatedHours, Decimal.isFinite x = true)
  other : ∀ t, t.id ∉ ids → (Stored w' t ↔ Stored w t)

/-- The members of a set by id. -/
def sortedMembers (s : Store) (now : Int) (key : Key) : List String :=
  (s.members now key).mergeSort fun a b => decide (a ≤ b)

theorem mem_sortedMembers {s : Store} {now : Int} {key : Key} {id : String} :
    id ∈ sortedMembers s now key ↔ id ∈ s.members now key := List.mem_mergeSort

theorem pairwise_sortedMembers {s : Store} (h : s.SetsOnce) (now : Int) (key : Key) :
    (sortedMembers s now key).Pairwise (· < ·) := by
  have hle : (sortedMembers s now key).Pairwise (· ≤ ·) := by
    refine (List.pairwise_mergeSort ?_ ?_ _).imp fun h => of_decide_eq_true h
    · intro a b c hab hbc
      exact decide_eq_true ((of_decide_eq_true hab).trans (of_decide_eq_true hbc))
    · intro a b
      simpa using le_total a b
  have hnodup : (sortedMembers s now key).Nodup :=
    (List.mergeSort_perm _ _).nodup_iff.mpr (h.members now key)
  exact (hle.and hnodup).imp fun ⟨hab, hne⟩ => lt_of_le_of_ne hab hne

theorem pairwise_targets {s : Store} (h : s.SetsOnce) (now : Int) (key : Key) (except : String) :
    (targets s now key except).Pairwise (· < ·) := (pairwise_sortedMembers h now key).filter _

/-- The tasks of some ids are kept as they were changed and written, the others as they were. -/
theorem Grouped.rewritten {w' : World} {m' : String → Option Task} (h : Grouped w.store m)
    (ho : w.outages = []) (hclock : w.clock.Stamped ∧ w.clock.isNaive = false) (h' : Grouped w'.store m')
    (ho' : w'.outages = []) {ids : List String} {x : RelatedField} {v : Value} {change : Task → Task}
    (hset : x.set { now := w.clock } v = .ok change)
    (hnew : ∀ t, Stored w t → t.id ∈ ids → m' t.id = some ((change t).changedAt w.clock).written)
    (hother : ∀ id ∉ ids, m' id = m id) :
    Rewritten w w' ids fun t => (change t).changedAt w.clock := by
  have hid : ∀ t, ((change t).changedAt w.clock).id = t.id := fun t => (set_keeps hset t).1
  refine ⟨fun t ht hmem => ?_, fun t ht hmem => ?_, fun t hmem => ?_⟩
  · exact (h'.documents.stored_iff ho' _).mpr ((congrArg m' (hid t)).trans (hnew t ht hmem))
  · have hm := (h.documents.stored_iff ho t).mp ht
    have hwell : ((change t).changedAt w.clock).WellFormed := by
      have hrevise := h.documents.revise_field hm (h.storable _ t hm) (s := { now := w.clock }) hclock x v
      rw [hset] at hrevise
      exact Task.wellFormed_of_check hclock.1.toShown hrevise
    have hextra : Value.allFiniteFields (change t).extra = true := by
      rw [(set_keeps hset t).2.2]
      exact (h.storable t.id t hm).extra
    rw [h'.documents.stored_iff ho', hid t, hnew t ht hmem, Option.some.injEq, Task.written_eq_iff hwell]
    exact and_iff_left hextra
  · rw [h'.documents.stored_iff ho', h.documents.stored_iff ho, hother t.id hmem]

/-- A value that passes its check is set for all of the tasks. -/
theorem Grouped.updateAll_rewritten (h : Grouped w.store m) (ho : w.outages = [])
    (hclock : w.clock.Stamped ∧ w.clock.isNaive = false) {ids : List String} (hids : ids.Nodup)
    (hstored : ∀ id ∈ ids, ∃ t, m id = some t) {x : RelatedField} {v : Value} {change : Task → Task}
    (hset : x.set { now := w.clock } v = .ok change) :
    ∃ w', (each (fun id => do let _ ← update id [(x.name, v)]; return id) ids).run w = (.ok ids, w') ∧
      Rewritten w w' ids fun t => (change t).changedAt w.clock := by
  have hanswer : ∀ {id t}, m id = some t → ((update id [(x.name, v)]).run w).1 =
      .ok ((change t).changedAt w.clock) := by
    intro id t hm
    rw [h.documents.answer_update ho, hm]
    refine (congrArg (Failure.ofChecked "Task") (h.documents.revise_field hm (h.storable _ t hm) hclock x v)).trans ?_
    rw [hset]
    rfl
  have hfits : ∀ id ∈ ids, ∀ t, ((update id [(x.name, v)]).run w).1 = .ok t →
      groupBookkeeping.Fits m (m id) t := by
    intro id hid t ht
    obtain ⟨old, hold⟩ := hstored id hid
    rw [hanswer hold] at ht
    cases ht
    obtain ⟨hsame, hhours, -⟩ := set_keeps hset old
    have hid' : ((change old).changedAt w.clock).id = id := hsame.trans (h.documents.id_eq hold)
    refine ⟨?_, fun old' hold' => by rwa [hid'] at hold'⟩
    exact (congrArg Decimal.isFinite hhours).trans (h.storable id old hold).actualHours
  obtain ⟨r, w', m', hrun, h', hother, hcases⟩ := groupBookkeeping.updateAll_cases h ho hclock hids hfits
  rcases hcases with ⟨rfl, hdone⟩ | ⟨f, -, id, hid, hfail⟩
  · refine ⟨w', hrun, h.rewritten ho hclock h' ((outages_of_run hrun).trans ho) hset ?_ hother⟩
    intro t ht hid
    obtain ⟨t', ht', hm'⟩ := hdone t.id hid
    rw [hanswer ((h.documents.stored_iff ho t).mp ht)] at ht'
    cases ht'
    exact hm'
  · -- none of the tasks fails alone
    obtain ⟨old, hold⟩ := hstored id hid
    rw [hanswer hold] at hfail
    cases hfail

/-- A value with issues changes none of the tasks, if there are any. -/
theorem Grouped.updateAll_issues (h : Grouped w.store m) (ho : w.outages = [])
    (hclock : w.clock.Stamped ∧ w.clock.isNaive = false) {ids : List String}
    (hstored : ∀ id ∈ ids, ∃ t, m id = some t) {x : RelatedField} {v : Value} {found : List Issue}
    (hset : x.set { now := w.clock } v = .issues found) :
    (each (fun id => do let _ ← update id [(x.name, v)]; return id) ids).run w =
      if ids = [] then (.ok [], w)
      else (.error (.invalidRecord "Task" (found.map (Issue.under (.field x.name)))), w) := by
  cases ids with
  | nil => rfl
  | cons id rest =>
    obtain ⟨t, hm⟩ := hstored id List.mem_cons_self
    have hrevise := h.documents.revise_field hm (h.storable _ t hm) (s := { now := w.clock }) hclock x v
    rw [hset] at hrevise
    rw [if_neg (List.cons_ne_nil id rest), each, run_bind, run_bind, h.documents.run_update ho, hm]
    simp only [hrevise]
    rfl

/-- The targets are the stored tasks of the client or the parent, but for one. -/
theorem Grouped.mem_targets (h : Grouped w.store m) (ho : w.outages = []) {client parent : Option String}
    {key : Key} (hkey : (Relation.of client parent).key? = some key) {except id : String} :
    id ∈ targets w.store w.clock.instant key except ↔
      ∃ t, Stored w t ∧ t.id = id ∧ (Relation.of client parent).Concerns t ∧ id ≠ except := by
  rw [Tasks.mem_targets, (h.sets (Relation.named_of client parent) hkey).mem_members]
  constructor
  · rintro ⟨⟨t, hm, hrelated⟩, hne⟩
    have hid := h.documents.id_eq hm
    exact ⟨t, (h.documents.stored_iff ho t).mpr (hid ▸ hm), hid, hrelated, hne⟩
  · rintro ⟨t, ht, rfl, hrelated, hne⟩
    exact ⟨⟨t, (h.documents.stored_iff ho t).mp ht, hrelated⟩, hne⟩

theorem Grouped.exists_of_mem_targets (h : Grouped w.store m) (ho : w.outages = [])
    {client parent : Option String} {key : Key} (hkey : (Relation.of client parent).key? = some key)
    {except : String} : ∀ id ∈ targets w.store w.clock.instant key except, ∃ t, m id = some t := by
  intro id hid
  obtain ⟨t, ht, rfl, -⟩ := (h.mem_targets ho hkey).mp hid
  exact ⟨t, (h.documents.stored_iff ho t).mp ht⟩

/-- After any edits that name what they replace, an update of related tasks concerns just the stored tasks
of the client, or without one of the parent, but for one, in ascending order. If the value passes its
check they are answered, each of them has the field set to what was checked and the time of its last
change, as far as this can be stored, and every other task is as it was. If the value has issues and there
are such tasks, it fails and nothing at all has changed. -/
theorem updateRelated_exact (h : Traced w) (x : RelatedField) (value : Value) (except : String)
    (client parent : Option String) :
    ∃ ids : List String, ids.Pairwise (· < ·)
      ∧ (∀ id, id ∈ ids ↔
        ∃ t, Stored w t ∧ t.id = id ∧ (Relation.of client parent).Concerns t ∧ id ≠ except)
      ∧ (∀ change, x.set { now := w.clock } value = .ok change →
        ∃ w', (updateRelated x.name value except (.of client parent)).run w = (.ok ids, w') ∧
          Rewritten w w' ids fun t => (change t).changedAt w.clock)
      ∧ ∀ found, x.set { now := w.clock } value = .issues found →
        (updateRelated x.name value except (.of client parent)).run w = if ids = [] then (.ok [], w)
          else (.error (.invalidRecord "Task" (found.map (Issue.under (.field x.name)))), w) := by
  obtain ⟨⟨m, hm⟩, hsets, hclock, ho⟩ := h.grouped
  cases hkey : (Relation.of client parent).key? with
  | none =>
    have hnobody : ∀ t, ¬ (Relation.of client parent).Concerns t := by
      intro t
      cases hr : Relation.of client parent with
      | nobody => exact id
      | _ =>
        rw [hr] at hkey
        cases hkey
    refine ⟨[], .nil, fun id => ?_, fun change _ => ⟨w, run_updateRelated_none ho hkey _ _ _, ?_⟩,
      fun found _ => run_updateRelated_none ho hkey _ _ _⟩
    · simp [hnobody]
    · have hnone : ∀ t : Task, t.id ∉ ([] : List String) := fun t => List.not_mem_nil
      exact ⟨fun t _ h => absurd h (hnone t), fun t _ h => absurd h (hnone t), fun t _ => Iff.rfl⟩
  | some key =>
    have hstored : ∀ id ∈ targets w.store w.clock.instant key except, ∃ t, m id = some t :=
      hm.exists_of_mem_targets ho hkey
    refine ⟨_, pairwise_targets hsets w.clock.instant key except,
      fun id => hm.mem_targets ho hkey, fun change hset => ?_, fun found hset => ?_⟩
    · rw [run_updateRelated ho hkey]
      exact hm.updateAll_rewritten ho hclock (nodup_targets hsets _ _ _) hstored hset
    · rw [run_updateRelated ho hkey]
      exact hm.updateAll_issues ho hclock hstored hset

/-- A task of a client. -/
def clientTask : Task := { sampleTask "task_1" 1 with clientId := some "client_1" }

/-- The world of this task alone. -/
def clientWorld : World := withTask { clock := sampleHour 0 } clientTask

theorem accepted_clientTask : clientTask.Accepted := by
  have hnow := zoned_sampleHour (n := 0) (by decide)
  have hsample : (sampleTask "task_1" 1).WellFormed := wellFormed_sampleTask (by decide)
  have hwell : clientTask.WellFormed := { hsample with }
  exact ⟨{ now := sampleHour 0 }, _, hnow, Task.check_value hwell hnow hnow rfl _⟩

theorem clientWorld_grouped : Traced clientWorld ∧ Grouped clientWorld.store
    (Function.update (fun _ => none) "task_1" (some clientTask)) := by
  have hstart : Traced { clock := sampleHour 0 } := .start rfl (zoned_sampleHour (by decide)) rfl
  have hempty : Grouped ({ clock := sampleHour 0 } : World).store fun _ => none := grouped_of_empty rfl
  constructor
  · refine hstart.edit (.save clientTask none) ⟨⟨?_, ?_⟩, ?_⟩
    · rintro _ _ ⟨⟩
      exact accepted_clientTask
    · rintro _ rfl
      exact hours_sampleTask 1
    · rintro _ old rfl hold -
      cases (hempty.documents.stored_iff rfl old).mp hold
  · obtain ⟨w', hrun, hgrouped⟩ := hempty.save (t := clientTask) rfl accepted_clientTask
      (hours_sampleTask 1) fun _ hold => hold
    have hworld : clientWorld = w' := by
      unfold clientWorld withTask
      rw [show (Edit.save clientTask none).program = do let _ ← save clientTask none from rfl,
        run_discard, hrun]
    rw [hworld]
    exact hgrouped

theorem clientWorld_clock : clientWorld.clock = sampleHour 0 := run_clock _ _

theorem stored_clientWorld {t : Task} : Stored clientWorld t ↔ t = clientTask := by
  obtain ⟨htraced, hgrouped⟩ := clientWorld_grouped
  rw [hgrouped.documents.stored_iff htraced.grouped.2.2.2, Function.update_apply]
  constructor
  · intro h
    split at h
    · exact (Option.some.inj h).symm
    · cases h
  · rintro rfl
    rfl

theorem eq_singleton_of_mem_iff {ids : List String} {id : String} (hsorted : ids.Pairwise (· < ·))
    (h : ∀ i, i ∈ ids ↔ i = id) : ids = [id] := by
  have hnodup : ids.Nodup := hsorted.imp fun hlt => hlt.ne
  refine List.perm_singleton.mp ((List.perm_ext_iff_of_nodup hnodup (List.nodup_singleton id)).mpr ?_)
  intro i
  rw [h, List.mem_singleton]

/-- The tasks of the client are this one. -/
theorem ids_of_clientWorld {ids : List String} (hsorted : ids.Pairwise (· < ·))
    (hmem : ∀ id, id ∈ ids ↔ ∃ t, Stored clientWorld t ∧ t.id = id ∧
      (Relation.of (some "client_1") none).Concerns t ∧ id ≠ "task_0") : ids = ["task_1"] := by
  refine eq_singleton_of_mem_iff hsorted fun id => ?_
  rw [hmem]
  constructor
  · rintro ⟨t, ht, rfl, -⟩
    rw [stored_clientWorld.mp ht]
    rfl
  · rintro rfl
    exact ⟨clientTask, stored_clientWorld.mpr rfl, rfl, rfl, by decide⟩

/-- The task of a client is tagged. -/
theorem updateRelated_exact_of_tag : Traced clientWorld ∧ ∃ w',
    (updateRelated "tag" (.str "late") "task_0" (.of (some "client_1") none)).run clientWorld =
      (.ok ["task_1"], w') ∧ Stored w' { clientTask with tag := some "late" } := by
  obtain ⟨htraced, -⟩ := clientWorld_grouped
  obtain ⟨ids, hsorted, hmem, hok, -⟩ :=
    updateRelated_exact htraced .tag (.str "late") "task_0" (some "client_1") none
  obtain rfl := ids_of_clientWorld hsorted hmem
  obtain ⟨w', hrun, hrewritten⟩ := hok _ rfl
  refine ⟨htraced, w', hrun, ?_⟩
  have hwritten := hrewritten.written clientTask (stored_clientWorld.mpr rfl) (by decide)
  rw [clientWorld_clock] at hwritten
  exact hwritten

/-- An infinite number of hours is checked, and the tasks are answered as changed; but the field is null
afterwards. -/
theorem emptied_by_update : Traced clientWorld ∧ Stored clientWorld clientTask
    ∧ RelatedField.estimatedHours.set { now := clientWorld.clock } (.str "inf") =
      .ok (fun t => { t with estimatedHours := some (Decimal.infinity false) })
    ∧ ∃ w', (updateRelated "estimated_hours" (.str "inf") "task_0" (.of (some "client_1") none)).run
        clientWorld = (.ok ["task_1"], w')
      ∧ Stored w' clientTask
      ∧ ¬ Stored w' { clientTask with estimatedHours := some (Decimal.infinity false) } := by
  obtain ⟨htraced, hgrouped⟩ := clientWorld_grouped
  obtain ⟨-, hsets, hclock, ho⟩ := htraced.grouped
  have hset : RelatedField.estimatedHours.set { now := clientWorld.clock } (.str "inf") =
      .ok (fun t => { t with estimatedHours := some (Decimal.infinity false) }) := by
    have hchecked : boundedNumber { least := some 0 } { now := clientWorld.clock } (.str "inf") =
        .ok (Decimal.infinity false) := boundedNumber_of_number rfl broken?_infinity
    unfold RelatedField.set
    simp only [nullable, hchecked]
    rfl
  have hkey : (Relation.of (some "client_1") none).key? = some (.taskClient "client_1") := rfl
  have htargets : targets clientWorld.store clientWorld.clock.instant (.taskClient "client_1") "task_0" =
      ["task_1"] := ids_of_clientWorld (pairwise_targets hsets _ _ _) fun id => hgrouped.mem_targets ho hkey
  obtain ⟨w', hrun, hrewritten⟩ := hgrouped.updateAll_rewritten ho hclock
    (nodup_targets hsets _ _ "task_0") (hgrouped.exists_of_mem_targets ho hkey) hset
  rw [← run_updateRelated ho hkey, htargets] at hrun
  rw [htargets] at hrewritten
  have hstored : Stored clientWorld clientTask := stored_clientWorld.mpr rfl
  have hinfinite : Decimal.isFinite (Decimal.infinity false) = false := isFinite_endlessTask
  refine ⟨htraced, hstored, hset, w', hrun, ?_, fun hkept => ?_⟩
  · have hwritten := hrewritten.written clientTask hstored (by decide)
    rw [clientWorld_clock] at hwritten
    have hemptied : (Task.changedAt { clientTask with estimatedHours := some (Decimal.infinity false) }
        (sampleHour 0)).written = clientTask := by
      unfold Task.written
      rw [show Task.estimatedHours (Task.changedAt _ _) = some (Decimal.infinity false) from rfl,
        Option.filter_some, if_neg (by rw [hinfinite]; exact Bool.false_ne_true)]
      rfl
    rwa [hemptied] at hwritten
  · have hexact := hrewritten.exact clientTask hstored (by decide)
    rw [clientWorld_clock] at hexact
    exact absurd (hexact.mp hkept _ rfl) (by rw [hinfinite]; exact Bool.false_ne_true)

end Tasks

end TaskAutomation
