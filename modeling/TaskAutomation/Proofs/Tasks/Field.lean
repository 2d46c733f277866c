import TaskAutomation.Action.Change
import TaskAutomation.Proofs.Tasks.Bulk
import TaskAutomation.Proofs.Tasks.Settled

/-!
# Setting one field of a task

* `RelatedField.shown` : a field of a task as results tell it; `RelatedField.Alone` : a task is another but
  for the field and the time of the last change;
* `Settled.update_field` : a field of a stored task is set. All other fields keep their values in the
  store, and of the rest of the store only the due index of its owner may change, with the due date.
-/

namespace TaskAutomation.Tasks

open Check Program

variable {w : World} {m : String → Option Task} {t old : Task} {s : Setting} {x : RelatedField} {v : Value}
  {change : Task → Task}

namespace RelatedField

/-- The field of a task as it is told. -/
def shown : RelatedField → Task → Value
  | .status, t => .str t.status.name
  | .priority, t => .str t.priority.name
  | .tag, t => .ofText? t.tag
  | .dueDate, t => Change.momentValue t.dueDate
  | .estimatedHours, t => Task.numberOrNull t.estimatedHours

/-- The second task is the first but for the field and the time of the last change. -/
def Alone : RelatedField → Task → Task → Prop
  | .status, old, t => t = { old with status := t.status, updatedAt := t.updatedAt }
  | .priority, old, t => t = { old with priority := t.priority, updatedAt := t.updatedAt }
  | .tag, old, t => t = { old with tag := t.tag, updatedAt := t.updatedAt }
  | .dueDate, old, t => t = { old with dueDate := t.dueDate, updatedAt := t.updatedAt }
  | .estimatedHours, old, t =>
    t = { old with estimatedHours := t.estimatedHours, updatedAt := t.updatedAt }

theorem alone_of_set (h : x.set s v = .ok change) (old : Task) (now : Moment) :
    x.Alone old ((change old).changedAt now) := by
  unfold set at h
  cases x <;> (obtain ⟨a, -, rfl⟩ := Checked.map_eq_ok.mp h; rfl)

theorem kin_of_set (h : x.set s v = .ok change) (old : Task) (now : Moment) :
    Kin old ((change old).changedAt now) := by
  unfold set at h
  cases x <;> (obtain ⟨a, -, rfl⟩ := Checked.map_eq_ok.mp h; exact ⟨rfl, rfl, rfl, rfl, rfl⟩)

theorem dueDate_of_set (h : x.set s v = .ok change) (hx : x ≠ .dueDate) (old : Task) :
    (change old).dueDate = old.dueDate := by
  unfold set at h
  cases x with
  | dueDate => exact absurd rfl hx
  | _ =>
    obtain ⟨a, -, rfl⟩ := Checked.map_eq_ok.mp h
    rfl

end RelatedField

theorem Settled.revise_eq (h : Settled w.store m)
    (hclock : w.clock.Stamped ∧ w.clock.isNaive = false) {id : String} (hm : m id = some old)
    (hset : x.set { now := w.clock } v = .ok change) :
    revise { now := w.clock } old [(x.name, v)] = .ok ((change old).changedAt w.clock) := by
  rw [h.documents.revise_field hm (h.storable id old hm) hclock, hset]
  rfl

/-- One field of a stored task is set. The task is kept as far as it can be stored, and all else is as it
was but for its place among the due tasks of its owner, and this only with its due date. -/
theorem Settled.update_field (h : Settled w.store m) (ho : w.outages = [])
    (hclock : w.clock.Stamped ∧ w.clock.isNaive = false) {id : String} (hm : m id = some old)
    (hset : x.set { now := w.clock } v = .ok change) :
    ∃ w', (update id [(x.name, v)]).run w = (.ok ((change old).changedAt w.clock), w')
      ∧ Saved w.store w'.store ((change old).changedAt w.clock)
      ∧ Settled w'.store (Function.update m id (some ((change old).changedAt w.clock).written))
      ∧ ∀ k, k ≠ .taskDetail id → (k = .taskDue old.userId → (change old).dueDate = old.dueDate) →
        w'.store.slots.lookup k = w.store.slots.lookup k := by
  have hrevise := h.revise_eq hclock hm hset
  have hkin := RelatedField.kin_of_set hset old w.clock
  have hid : ((change old).changedAt w.clock).id = id := hkin.id.trans (h.documents.id_eq hm)
  have hhours : Decimal.isFinite ((change old).changedAt w.clock).actualHours = true :=
    (congrArg Decimal.isFinite (set_keeps hset old).2.1).trans (h.storable id old hm).actualHours
  obtain ⟨w', hrun, hsaved, hsettled, hframe⟩ := h.rewrite ho (hid.symm ▸ hm) hkin
    (Task.accepted_of_check hclock hrevise) hhours
  refine ⟨w', ?_, hsaved, hid ▸ hsettled, fun k hk hdue => ?_⟩
  · rw [h.documents.run_update ho, hm]
    simp only [hrevise]
    exact hrun
  · exact hframe k (hid.symm ▸ hk) fun heq => hdue (heq.trans (congrArg Key.taskDue hkin.owner))

/-- A task whose new field is finite is stored as it is. -/
theorem Settled.written_eq (h : Settled w.store m)
    (hclock : w.clock.Stamped ∧ w.clock.isNaive = false) {id : String} (hm : m id = some old)
    (hset : x.set { now := w.clock } v = .ok change)
    (hfinite : ∀ y ∈ (change old).estimatedHours, Decimal.isFinite y = true) :
    ((change old).changedAt w.clock).written = (change old).changedAt w.clock := by
  have hrevise := h.revise_eq hclock hm hset
  refine (Task.written_eq_iff (Task.wellFormed_of_check hclock.1.toShown hrevise)).mpr ⟨hfinite, ?_⟩
  rw [show ((change old).changedAt w.clock).extra = old.extra from (set_keeps hset old).2.2]
  exact (h.storable id old hm).extra

/-- The world of one task is in use, and no dependency was recorded in it. -/
theorem heldWorld_inUse : Used heldWorld [] ∧
    InUse heldWorld (Function.update (fun _ => none) "task_1" (some (sampleTask "task_1" 1))) [] := by
  have hclock := zoned_sampleHour (n := 0) (by decide)
  have hstart : Used { clock := sampleHour 0 } [] := .start rfl hclock rfl
  have hempty : InUse { clock := sampleHour 0 } (fun _ => none) [] :=
    ⟨settled_of_empty rfl, depend_of_empty rfl, Store.setsOnce_of_empty rfl, hclock, rfl⟩
  exact InUse.withTask hstart hempty (accepted_sampleTask (n := 1) (by decide)) (hours_sampleTask 1)

end TaskAutomation.Tasks
