import TaskAutomation.Proofs.Engine.Rejection
import TaskAutomation.Proofs.Tasks.Field

/-!
# Tasks that were waiting for a completed one

Whoever depends on a task is in one set, however often this was recorded, and a task that is started is no
longer pending. So tasks are started once:

* `Task.begun` : a task in progress, as of now;
* `Tasks.waiting` : the ids of those among some tasks that are pending; `Settled.run_starts` : just these
  are started, one by one, and nothing else in the store changes;
* `Tasks.Started w w' ids` : the tasks of some ids were started and all else is as it was;
* `Engine.startDependents_exact` : what becomes of an action that starts the dependents of a completed task,
  and that there is nothing to do when it runs again.
-/

namespace TaskAutomation

open Check Program

/-- The task in progress, as of now. -/
def Task.begun (t : Task) (now : Moment) : Task :=
  Task.changedAt { t with status := .inProgress } now

namespace Tasks

variable {w : World} {m : String → Option Task} {ds : List (String × String)} {d t : Task}

/-- The ids of the pending tasks among some. -/
def waiting (tasks : List Task) : List String :=
  (tasks.filter fun d => d.status = .pending).map Task.id

theorem mem_waiting {tasks : List Task} {id : String} :
    id ∈ waiting tasks ↔ ∃ d ∈ tasks, d.status = .pending ∧ d.id = id := by
  simp [waiting, and_assoc]

/-! ## Starting -/

theorem set_inProgress (s : Setting) : RelatedField.status.set s (.str TaskStatus.inProgress.name) =
    .ok fun d => { d with status := .inProgress } := rfl

/-- A pending task is started. -/
theorem Settled.run_start (h : Settled w.store m) (ho : w.outages = [])
    (hclock : w.clock.Stamped ∧ w.clock.isNaive = false) (hm : m d.id = some d)
    (hpending : d.status = .pending) :
    ∃ w', (Relation.start d).run w = (.ok (some d.id), w')
      ∧ Settled w'.store (Function.update m d.id (some (d.begun w.clock)))
      ∧ ∀ k, k ≠ .taskDetail d.id → w'.store.slots.lookup k = w.store.slots.lookup k := by
  have hset := set_inProgress { now := w.clock }
  have hwritten := h.written_eq hclock hm hset (h.storable d.id d hm).estimatedHours
  obtain ⟨w', hrun, -, hsettled, hframe⟩ := h.update_field ho hclock hm hset
  rw [hwritten] at hsettled
  refine ⟨w', ?_, hsettled, fun k hk => hframe k hk fun _ => rfl⟩
  unfold Relation.start
  rw [if_pos hpending]
  exact run_bind_ok hrun

theorem run_start_of_not_pending (hnot : d.status ≠ .pending) (w : World) :
    (Relation.start d).run w = (.ok none, w) := by
  unfold Relation.start
  rw [if_neg hnot]
  rfl

/-- Of different stored tasks the pending ones are started, and nothing else changes. -/
theorem Settled.run_starts {tasks : List Task} (h : Settled w.store m) (ho : w.outages = [])
    (hclock : w.clock.Stamped ∧ w.clock.isNaive = false) (honce : (tasks.map Task.id).Nodup)
    (hstored : ∀ d ∈ tasks, m d.id = some d) :
    ∃ answers w' m', (each Relation.start tasks).run w = (.ok answers, w')
      ∧ answers.filterMap id = waiting tasks
      ∧ Settled w'.store m'
      ∧ (∀ d ∈ tasks, d.status = .pending → m' d.id = some (d.begun w.clock))
      ∧ (∀ id ∉ waiting tasks, m' id = m id)
      ∧ ∀ k, (∀ id ∈ waiting tasks, k ≠ .taskDetail id) →
        w'.store.slots.lookup k = w.store.slots.lookup k := by
  induction tasks generalizing w m with
  | nil => exact ⟨[], w, m, rfl, rfl, h, by simp, fun _ _ => rfl, fun _ _ => rfl⟩
  | cons d rest ih =>
    obtain ⟨hfresh, honce⟩ := List.nodup_cons.mp honce
    obtain ⟨hm, hrest⟩ := List.forall_mem_cons.mp hstored
    by_cases hpending : d.status = .pending
    · obtain ⟨w₁, hrun, h₁, hframe₁⟩ := h.run_start ho hclock hm hpending
      have hclock₁ : w₁.clock = w.clock := clock_of_run hrun
      have hleft : ∀ e ∈ rest, Function.update m d.id (some (d.begun w.clock)) e.id = some e := by
        intro e he
        have hne : e.id ≠ d.id := fun heq => hfresh (heq ▸ List.mem_map_of_mem he)
        rw [Function.update_of_ne hne]
        exact hrest e he
      obtain ⟨answers, w', m', hruns, hids, hsettled, hbegun, hother, hframe⟩ :=
        ih h₁ ((outages_of_run hrun).trans ho) (hclock₁ ▸ hclock) honce hleft
      have hwaiting : waiting (d :: rest) = d.id :: waiting rest := by simp [waiting, hpending]
      have hnot : d.id ∉ waiting rest := by
        rw [mem_waiting]
        rintro ⟨e, he, -, heq⟩
        exact hfresh (heq ▸ List.mem_map_of_mem he)
      rw [hwaiting]
      refine ⟨some d.id :: answers, w', m', ?_, congrArg (List.cons d.id) hids, hsettled, ?_, ?_, ?_⟩
      · rw [each, run_bind_ok hrun, run_bind_ok hruns, run_pure]
      · rw [hclock₁] at hbegun
        refine List.forall_mem_cons.mpr ⟨fun _ => ?_, hbegun⟩
        rw [hother d.id hnot, Function.update_self]
      · intro id hid
        obtain ⟨hne, hid⟩ := not_or.mp (List.mem_cons.not.mp hid)
        rw [hother id hid, Function.update_of_ne hne]
      · intro k hk
        obtain ⟨hd, hk⟩ := List.forall_mem_cons.mp hk
        rw [hframe k hk, hframe₁ k hd]
    · obtain ⟨answers, w', m', hruns, hids, hsettled, hbegun, hother, hframe⟩ :=
        ih h ho hclock honce hrest
      have hwaiting : waiting (d :: rest) = waiting rest := by simp [waiting, hpending]
      rw [hwaiting]
      refine ⟨none :: answers, w', m', ?_, hids, hsettled, ?_, hother, hframe⟩
      · rw [each, run_bind_ok (run_start_of_not_pending hpending w), run_bind_ok hruns, run_pure]
      · exact List.forall_mem_cons.mpr ⟨fun h => absurd h hpending, hbegun⟩

/-! ## Dependents -/

/-- The stored tasks that depend on a task, by id. -/
def dependentTasks (w : World) (m : String → Option Task) (taskId : String) : List Task :=
  (sortedMembers w.store w.clock.instant (.taskDependents taskId)).filterMap m

theorem InUse.run_dependents (h : InUse w m ds) (taskId : String) :
    (dependents taskId).run w = (.ok (dependentTasks w m taskId), w) := by
  unfold dependents
  rw [Operation.run_guard h.outages, run_bind_ok (run_read rfl w)]
  exact h.settled.documents.run_getMany h.outages _

theorem InUse.mem_dependentTasks (h : InUse w m ds) {taskId : String} :
    d ∈ dependentTasks w m taskId ↔ m d.id = some d ∧ (d.id, taskId) ∈ ds := by
  unfold dependentTasks
  rw [List.mem_filterMap]
  constructor
  · rintro ⟨id, hid, hm⟩
    rw [mem_sortedMembers, (h.depend taskId).mem_members] at hid
    rw [h.settled.documents.id_eq hm]
    exact ⟨hm, hid⟩
  · rintro ⟨hm, hmem⟩
    exact ⟨d.id, mem_sortedMembers.mpr (((h.depend taskId).mem_members _).mpr hmem), hm⟩

theorem InUse.pairwise_dependentTasks (h : InUse w m ds) (taskId : String) :
    ((dependentTasks w m taskId).map Task.id).Pairwise (· < ·) :=
  (pairwise_sortedMembers h.sets _ _).sublist (h.settled.documents.ids_sublist _)

theorem InUse.mem_waiting (h : InUse w m ds) {taskId id : String} :
    id ∈ waiting (dependentTasks w m taskId) ↔
      (id, taskId) ∈ ds ∧ ∃ d, Stored w d ∧ d.id = id ∧ d.status = .pending := by
  rw [Tasks.mem_waiting]
  constructor
  · rintro ⟨d, hd, hpending, rfl⟩
    obtain ⟨hm, hmem⟩ := h.mem_dependentTasks.mp hd
    exact ⟨hmem, d, (h.settled.documents.stored_iff h.outages d).mpr hm, rfl, hpending⟩
  · rintro ⟨hmem, d, hd, rfl, hpending⟩
    have hm := (h.settled.documents.stored_iff h.outages d).mp hd
    exact ⟨d, h.mem_dependentTasks.mpr ⟨hm, hmem⟩, hpending, rfl⟩

/-- The tasks of some ids were started, all others are as they were, and nothing else has changed. -/
structure Started (w w' : World) (ids : List String) : Prop where
  begun : ∀ d, Stored w d → d.id ∈ ids → Stored w' (d.begun w.clock)
  others : ∀ d, d.id ∉ ids → (Stored w' d ↔ Stored w d)
  frame : ∀ k, (∀ id ∈ ids, k ≠ .taskDetail id) → w'.store.slots.lookup k = w.store.slots.lookup k

end Tasks

/-! ## The action -/

namespace Relation

open Tasks

variable {w : World} {m : String → Option Task} {ds : List (String × String)} {t : Task} {p : Parameters}
  (o : Occasion)

/-- The result where some tasks were started. -/
def started (ids : List String) : Fields :=
  [("started_task_ids", .ofTexts ids), ("count", .count ids)]

theorem run_startDependents (h : InUse w m ds) (ht : t.status = .completed)
    (hauto : p.get? "auto_start" = some (.bool true)) {answers : List (Option String)} {w' : World}
    (hruns : (each start (dependentTasks w m t.id)).run w = (.ok answers, w')) :
    (startDependents p t o).run w = (.ok (started (answers.filterMap id)), w') := by
  have hneed : p.need "auto_start" = .done (.bool true) := by
    unfold Parameters.need
    rw [hauto]
    rfl
  unfold startDependents
  rw [if_neg (not_not.mpr ht), hneed, run_bind_ok (run_done _ w), if_neg (by decide),
    run_bind_ok (h.run_dependents t.id), run_bind_ok hruns]
  rfl

/-- The pending dependents of a completed task are started, and then none of them is pending. -/
theorem startDependents_started (h : InUse w m ds) (ht : t.status = .completed)
    (hauto : p.get? "auto_start" = some (.bool true)) :
    ∃ w' m', (startDependents p t o).run w = (.ok (started (waiting (dependentTasks w m t.id))), w')
      ∧ InUse w' m' ds ∧ Started w w' (waiting (dependentTasks w m t.id))
      ∧ ∀ d, m' d.id = some d → (d.id, t.id) ∈ ds → d.status ≠ .pending := by
  have honce : ((dependentTasks w m t.id).map Task.id).Nodup :=
    (h.pairwise_dependentTasks t.id).imp fun h => h.ne
  obtain ⟨answers, w', m', hruns, hids, hsettled, hbegun, hother, hframe⟩ :=
    h.settled.run_starts h.outages h.clock honce fun d hd => (h.mem_dependentTasks.mp hd).1
  have hrun := run_startDependents o h ht hauto hruns
  rw [hids] at hrun
  have hdepend : Depend w'.store ds := h.depend.of_lookup_eq fun k hk => by
    refine hframe k fun id _ heq => ?_
    rw [heq] at hk
    exact hk
  have huse := h.run hruns hsettled hdepend
  refine ⟨w', m', hrun, huse, ⟨fun d hd hmem => ?_, fun d hmem => ?_, hframe⟩, fun d hm' hmem hpending => ?_⟩
  · obtain ⟨e, he, hpending, heq⟩ := Tasks.mem_waiting.mp hmem
    have hm := (h.settled.documents.stored_iff h.outages d).mp hd
    have he' := (h.mem_dependentTasks.mp he).1
    rw [heq, hm] at he'
    cases he'
    exact (huse.settled.documents.stored_iff huse.outages _).mpr (hbegun d he hpending)
  · rw [huse.settled.documents.stored_iff huse.outages, h.settled.documents.stored_iff h.outages,
      hother d.id hmem]
  · by_cases hstarted : d.id ∈ waiting (dependentTasks w m t.id)
    · obtain ⟨e, he, hpending', heq⟩ := Tasks.mem_waiting.mp hstarted
      have hbegun := hbegun e he hpending'
      rw [heq, hm'] at hbegun
      cases hbegun
      cases hpending
    · -- it is as it was before, when it would have been started
      rw [hother d.id hstarted] at hm'
      exact hstarted (Tasks.mem_waiting.mpr ⟨d, h.mem_dependentTasks.mpr ⟨hm', hmem⟩, hpending, rfl⟩)

/-- Where no dependent is pending nothing happens. -/
theorem startDependents_none (h : InUse w m ds) (ht : t.status = .completed)
    (hauto : p.get? "auto_start" = some (.bool true))
    (hnone : ∀ d, m d.id = some d → (d.id, t.id) ∈ ds → d.status ≠ .pending) :
    (startDependents p t o).run w = (.ok (started []), w) := by
  have hruns : (each start (dependentTasks w m t.id)).run w =
      (.ok ((dependentTasks w m t.id).map fun _ => none), w) := by
    refine run_each fun d hd => run_start_of_not_pending ?_ w
    obtain ⟨hm, hmem⟩ := h.mem_dependentTasks.mp hd
    exact hnone d hm hmem
  have hanswers : ((dependentTasks w m t.id).map fun _ => (none : Option String)).filterMap id = [] := by
    simp [List.filterMap_map]
  rw [run_startDependents o h ht hauto hruns, hanswers]

end Relation

/-- The parameters of such an action are read with its start set. -/
theorem Parameters.read_autoStart {s : Setting} {f : Fields} {v : Value}
    (hv : f.get? "auto_start" = some v) (hauto : boolean s v = .ok true) :
    ∃ p, Parameters.read ActionType.updateDependencies.name s f = .ok p ∧
      p.get? "auto_start" = some (.bool true) := by
  have hall : Parameter.readAll ActionType.updateDependencies.parameters s f =
      .ok (("auto_start", .bool true) :: others ["auto_start"] f) := by
    have hread : Check.optional s f "auto_start" (Value.bool false)
        (fun s v => (boolean s v).map Value.bool) = .ok (.bool true) :=
      optional_of_get? hv (by rw [hauto]; rfl)
    unfold Parameter.readAll
    simp only [ActionType.parameters, List.foldr_cons, List.foldr_nil, Parameter.read, hread]
    rfl
  refine ⟨⟨ActionType.updateDependencies.recordName, ActionType.updateDependencies.parameters,
    ("auto_start", .bool true) :: others ["auto_start"] f⟩, ?_, rfl⟩
  show Parameters.readFor .updateDependencies s f = _
  unfold Parameters.readFor
  rw [hall]
  rfl

namespace Engine

open Tasks

variable {e : Engine} {a : Action} {t : Task} {context : Fields} {rule : Option Rule}
  {moment : Option Moment} {w : World} {ds : List (String × String)} {v : Value}

/-- An action that starts the dependents of a completed task tells the ids of those stored tasks that are
pending and were recorded to depend on it, in ascending order. These get in progress, and nothing else
changes. As soon as it runs again, or later if nothing has changed since, it does nothing. -/
theorem startDependents_exact (h : Used w ds)
    (htype : e.registry.lookup a.type = some .updateDependencies)
    (hname : a.type = ActionType.updateDependencies.name) (ht : t.status = .completed)
    (hv : (a.filled t context).get? "auto_start" = some v)
    (hauto : boolean { now := w.clock } v = .ok true) :
    ∃ ids w', (e.dispatch a t context rule moment).run w = (.ok (Relation.started ids), w')
      ∧ ids.Pairwise (· < ·)
      ∧ (∀ id, id ∈ ids ↔ (id, t.id) ∈ ds ∧ ∃ d, Stored w d ∧ d.id = id ∧ d.status = .pending)
      ∧ Started w w' ids
      ∧ ∀ later : World, later.store = w'.store → later.clock.Stamped ∧ later.clock.isNaive = false →
        later.outages = [] →
        (e.dispatch a t context rule moment).run later = (.ok (Relation.started []), later) := by
  obtain ⟨m, hm⟩ := h.inUse
  obtain ⟨p, hread, hp⟩ := Parameters.read_autoStart (s := { now := w.clock }) hv hauto
  obtain ⟨w', m', hrun, huse, hstarted, hnone⟩ := Relation.startDependents_started
    ⟨e.settings, moment.getD w.clock, rule, context⟩ hm ht hp
  rw [← hname] at hread
  refine ⟨_, w', run_dispatch_of_read hm.outages htype hread hrun, ?_, fun id => hm.mem_waiting,
    hstarted, fun later hstore hclock ho => ?_⟩
  · exact (hm.pairwise_dependentTasks t.id).sublist (List.filter_sublist.map Task.id)
  · have hlater : InUse later m' ds :=
      ⟨hstore ▸ huse.settled, hstore ▸ huse.depend, hstore ▸ huse.sets, hclock, ho⟩
    obtain ⟨p', hread', hp'⟩ := Parameters.read_autoStart (s := { now := later.clock }) hv hauto
    rw [← hname] at hread'
    exact run_dispatch_of_read ho htype hread' (Relation.startDependents_none
      ⟨e.settings, moment.getD later.clock, rule, context⟩ hlater ht hp' hnone)

/-- The world of one task, of which it was recorded twice that it depends on another one, and once of a
task that is not stored. -/
def waitingWorld : World :=
  let depend (id : String) (w : World) : World :=
    ((createDependency (.str id) (.str "task_2")).run w).2
  depend "task_9" (depend "task_1" (depend "task_1" heldWorld))

theorem waitingWorld_inUse :
    Used waitingWorld [("task_9", "task_2"), ("task_1", "task_2"), ("task_1", "task_2")] ∧
      InUse waitingWorld (Function.update (fun _ => none) "task_1" (some (sampleTask "task_1" 1)))
        [("task_9", "task_2"), ("task_1", "task_2"), ("task_1", "task_2")] := by
  obtain ⟨hused, huse⟩ := heldWorld_inUse
  exact ⟨((hused.depend (.str "task_1") (.str "task_2")).depend (.str "task_1") (.str "task_2")).depend
      (.str "task_9") (.str "task_2"),
    ((huse.createDependency (.str "task_1") (.str "task_2")).createDependency (.str "task_1")
      (.str "task_2")).createDependency (.str "task_9") (.str "task_2")⟩

/-- The task that the others wait for. -/
def finishedTask : Task := { sampleTask "task_2" 2 with status := .completed }

def startWaiting : Action := ⟨"update_dependencies", [("auto_start", .bool true)]⟩

/-- One task is started, once. -/
theorem startDependents_exact_of_repeated : ∃ w',
    (dispatch {} startWaiting finishedTask [] none none).run waitingWorld =
      (.ok (Relation.started ["task_1"]), w')
      ∧ Stored w' ((sampleTask "task_1" 1).begun (sampleHour 0))
      ∧ (dispatch {} startWaiting finishedTask [] none none).run w' =
        (.ok (Relation.started []), w') := by
  obtain ⟨hused, huse⟩ := waitingWorld_inUse
  have htype : ({} : Engine).registry.lookup startWaiting.type = some .updateDependencies := rfl
  have hparameter : (startWaiting.filled finishedTask []).get? "auto_start" = some (.bool true) := rfl
  obtain ⟨ids, w', hrun, hsorted, hids, hstarted, hagain⟩ :=
    @startDependents_exact {} startWaiting finishedTask [] none none _ _ _ hused htype rfl rfl hparameter rfl
  have hone : ids = ["task_1"] := by
    refine eq_singleton_of_mem_iff hsorted fun id => ?_
    rw [hids]
    constructor
    · rintro ⟨-, d, hd, rfl, -⟩
      rw [(huse.stored_iff_eq rfl).mp hd]
      rfl
    · rintro rfl
      exact ⟨by decide, _, (huse.stored_iff_eq rfl).mpr rfl, rfl, rfl⟩
  subst hone
  have hclock : waitingWorld.clock = sampleHour 0 := by
    unfold waitingWorld heldWorld withTask
    simp only [run_clock]
  refine ⟨w', hrun, ?_, hagain w' rfl ?_ ((outages_of_run hrun).trans huse.outages)⟩
  · have hbegun := hstarted.begun _ ((huse.stored_iff_eq rfl).mpr rfl) (by decide)
    rwa [hclock] at hbegun
  · rw [clock_of_run hrun]
    exact huse.clock

end Engine

end TaskAutomation
