import TaskAutomation.Proofs.Tasks.Index

/-!
# Tasks come back from the store

* `Task.Storable` : the numbers of a task are finite, those in the fields that its host adds among
  them;
* `Task.written` : the task with null for every other number, as far as there can be null: the actual
  hours cannot, so the object of a task with infinitely many of them is none of a task
  (`Task.check_storableFields_issues`);
* `Tasks.run_get_of_save` : a task that was saved is read as its document is, whatever was there before;
* `Tasks.get_save` : a task that passed its check is always saved, and then read as itself in every
  field just when it can be stored; with infinitely many actual hours it cannot be read at all.
-/

namespace TaskAutomation

open Check Program

/-! ## What a document says of a task -/

/-- A number that is at least 0 and at most 1 is finite. -/
theorem Check.isFinite_of_broken? {x : Float}
    (h : Bounds.broken? { least := some 0, most := some 1 } (.ofFloat x) = none) :
    Decimal.isFinite x = true := by
  unfold Decimal.isFinite
  cases hx : Decimal.Binary.ofFloat x with
  | finite negative m e => rfl
  | infinite negative =>
    rw [hx] at h
    revert h
    cases negative <;> decide
  | nan =>
    rw [hx] at h
    revert h
    decide

namespace Task

variable {s : Setting} {v : Value} {t : Task}

/-- What the document of a task says all of. -/
structure Storable (t : Task) : Prop where
  estimatedHours : ∀ x ∈ t.estimatedHours, Decimal.isFinite x = true
  actualHours : Decimal.isFinite t.actualHours = true
  extra : Value.allFiniteFields t.extra = true

/-- The task with null for numbers that are not finite, where there can be null. -/
def written (t : Task) : Task :=
  { t with
    estimatedHours := t.estimatedHours.filter Decimal.isFinite
    aiConfidence := t.aiConfidence.filter Decimal.isFinite
    extra := Value.storableFields t.extra }

theorem storable_numberOrNull (x? : Option Float) :
    (numberOrNull x?).storable = numberOrNull (x?.filter Decimal.isFinite) := by
  cases x? with
  | none => rfl
  | some x =>
    rw [numberOrNull, Value.storable, Option.filter_some]
    split <;> rfl

theorem filter_isFinite_eq_iff {x? : Option Float} :
    x?.filter Decimal.isFinite = x? ↔ ∀ x ∈ x?, Decimal.isFinite x = true := by
  cases x? with
  | none => simp
  | some x => simp [Option.filter_some]

/-- With finitely many actual hours, what is stored of a task are the fields of a task. -/
theorem storableFields_fields (h : Decimal.isFinite t.actualHours = true) :
    Value.storableFields t.fields = t.written.fields := by
  have hmoment : ∀ m? : Option Moment, (momentOrNull m?).storable = momentOrNull m? := by
    rintro (_ | _) <;> rfl
  have htexts : (Value.ofTexts t.assigneeIds).storable = .ofTexts t.assigneeIds := by
    unfold Value.ofTexts
    rw [Value.storable, Value.storableList_map]
    rfl
  have hactual : (Value.float t.actualHours).storable = .float t.actualHours := if_pos h
  unfold fields
  rw [Value.storableFields_append, Value.storableFields_storableFields]
  simp only [Value.storableFields, Value.storable_ofText?, hmoment, htexts, hactual, storable_numberOrNull, written,
    Value.storableFields_storableFields]
  rfl

theorem WellFormed.written (h : t.WellFormed) : t.written.WellFormed where
  dueDate := h.dueDate
  estimatedHours x hx := h.estimatedHours x (Option.mem_filter_iff.mp hx).1
  actualHours := h.actualHours
  progress := h.progress
  aiConfidence x hx := h.aiConfidence x (Option.mem_filter_iff.mp hx).1
  createdAt := h.createdAt
  updatedAt := h.updatedAt
  extra := h.storable_extra

theorem WellFormed.withHours (h : t.WellFormed) {x : Float}
    (hx : Bounds.broken? { least := some 0 } (.ofFloat x) = none) :
    ({ t with actualHours := x } : Task).WellFormed :=
  { h with actualHours := hx }

theorem written_eq_iff (h : t.WellFormed) :
    t.written = t ↔ (∀ x ∈ t.estimatedHours, Decimal.isFinite x = true) ∧
      Value.allFiniteFields t.extra = true := by
  have hconfidence : t.aiConfidence.filter Decimal.isFinite = t.aiConfidence :=
    filter_isFinite_eq_iff.mpr fun x hx => isFinite_of_broken? (h.aiConfidence x hx)
  rw [← Value.storableFields_eq_iff, ← filter_isFinite_eq_iff]
  constructor
  · intro heq
    exact ⟨congrArg Task.estimatedHours heq, congrArg Task.extra heq⟩
  · rintro ⟨hestimated, hextra⟩
    unfold Task.written
    rw [hestimated, hconfidence, hextra]

/-- The moments of a task that passes its check are in whole minutes from UTC, and say so. -/
theorem stamped_of_check (hs : s.now.Stamped ∧ s.now.isNaive = false) (h : Task.check s v = .ok t) :
    (t.createdAt.Stamped ∧ t.createdAt.isNaive = false) ∧
      t.updatedAt.Stamped ∧ t.updatedAt.isNaive = false := by
  obtain ⟨f, -, -, -, -, -, -, -, hcreated, hupdated, -⟩ := parts_of_check h
  have hmoment : ∀ {name m}, Check.optional s f name s.now momentInUtc = .ok m →
      m.Stamped ∧ m.isNaive = false := by
    intro name m hm
    rcases optional_eq_ok hm with rfl | ⟨v, hv⟩
    · exact hs
    · exact ⟨stamped_of_momentInUtc hv, aware_of_momentInUtc hv⟩
  exact ⟨hmoment hcreated, hmoment hupdated⟩

/-- A task whose moments and other fields its object says all of passes its check as this object. -/
theorem check_value (hwell : t.WellFormed)
    (hcreated : t.createdAt.Stamped ∧ t.createdAt.isNaive = false)
    (hupdated : t.updatedAt.Stamped ∧ t.updatedAt.isNaive = false)
    (hextra : Value.allFiniteFields t.extra = true) (s : Setting) :
    Task.check s t.value = .ok t :=
  (ofFields_fields hwell s).trans (congrArg Checked.ok (reread_eq hcreated hupdated hextra))

/-- With finitely many actual hours, what is stored of a task that passed its check is read as the task
that was written, at any time. -/
theorem check_storableFields (hs : s.now.Stamped ∧ s.now.isNaive = false)
    (h : Task.check s v = .ok t) (hactual : Decimal.isFinite t.actualHours = true) (s' : Setting) :
    Task.check s' (.obj (Value.storableFields t.fields)) = .ok t.written := by
  obtain ⟨hcreated, hupdated⟩ := stamped_of_check hs h
  rw [storableFields_fields hactual]
  exact check_value (wellFormed_of_check hs.1.toShown h).written hcreated hupdated
    (Value.allFiniteFields_storableFields t.extra) s'

/-- With infinitely many actual hours, what is stored of a task is no task: null is no number. -/
theorem check_storableFields_issues (hactual : Decimal.isFinite t.actualHours = false) (s' : Setting) :
    ∃ found, Task.check s' (.obj (Value.storableFields t.fields)) = .issues found := by
  cases hread : Task.check s' (.obj (Value.storableFields t.fields)) with
  | issues found => exact ⟨found, rfl⟩
  | ok t' =>
    obtain ⟨f, hf, -, -, -, hhours, -⟩ := parts_of_check hread
    cases hf
    have hnull : Fields.get? (Value.storableFields t.fields) "actual_hours" = some .null := by
      rw [Value.get?_storableFields]
      show some (Value.float t.actualHours).storable = _
      rw [Value.storable, if_neg (by simp [hactual])]
    -- the field is there, so its default does not stand in for the null
    rcases get?_of_optional hhours with ⟨v, hv, hnumber⟩ | ⟨hnone, -⟩
    · rw [hnull] at hv
      cases hv
      cases hnumber
    · rw [hnull] at hnone
      cases hnone

end Task

/-! ## Saving and reading -/

namespace Tasks

variable {s : Setting} {v : Value} {t : Task} {w later : World}

theorem run_get_of_save (previous : Option Task) (ho : w.outages = [])
    (hstore : later.store = ((save t previous).run w).2.store) (hlater : later.outages = []) :
    (get t.id).run later = ((Failure.ofChecked "Task" (Task.check { now := later.clock }
      (.obj (Value.storableFields t.fields)))).map some, later) := by
  obtain ⟨w', hsave, hkeeps⟩ := run_save_document t previous ho
  rw [hsave] at hstore
  rw [← hstore] at hkeeps
  exact run_get_of_keeps hlater hkeeps

/-- A task that passed its check is saved. At any later time it is read as it was written if it has
finitely many actual hours, otherwise nothing can be read; so it is read as itself just when its numbers
are finite. -/
theorem get_save (hs : s.now.Stamped ∧ s.now.isNaive = false) (h : Task.check s v = .ok t)
    (previous : Option Task) (ho : w.outages = [])
    (hstore : later.store = ((save t previous).run w).2.store) (hlater : later.outages = []) :
    ((save t previous).run w).1 = .ok t ∧
      (Decimal.isFinite t.actualHours = true → ((get t.id).run later).1 = .ok (some t.written)) ∧
      (Decimal.isFinite t.actualHours = false →
        ∃ found, ((get t.id).run later).1 = .error (.invalidRecord "Task" found)) ∧
      (((get t.id).run later).1 = .ok (some t) ↔ t.Storable) := by
  obtain ⟨w', hsave, -⟩ := run_save_document t previous ho
  have hwritten := Task.written_eq_iff (Task.wellFormed_of_check hs.1.toShown h)
  rw [run_get_of_save previous ho hstore hlater]
  refine ⟨congrArg Prod.fst hsave, ?_⟩
  cases hactual : Decimal.isFinite t.actualHours with
  | true =>
    rw [Task.check_storableFields hs h hactual]
    refine ⟨fun _ => rfl, nofun, fun heq => ?_, fun hstorable => ?_⟩
    · obtain ⟨hestimated, hextra⟩ := hwritten.mp (Option.some.inj (Except.ok.inj heq))
      exact ⟨hestimated, hactual, hextra⟩
    · have heq := hwritten.mpr ⟨hstorable.estimatedHours, hstorable.extra⟩
      exact congrArg (fun a => Except.ok (some a)) heq
  | false =>
    obtain ⟨found, hread⟩ := Task.check_storableFields_issues hactual { now := later.clock }
    rw [hread]
    refine ⟨nofun, fun _ => ⟨found, rfl⟩, nofun, fun hstorable => ?_⟩
    exact absurd hstorable.actualHours (by simp [hactual])

/-- A task with numbers among the fields that its host added. -/
def plannedTask : Task where
  id := "task_1"
  userId := "user_1"
  clientId := none
  title := "Plan"
  description := some "The next step"
  status := .inProgress
  priority := .high
  tag := none
  dueDate := some ⟨Moment.epoch, some 5400⟩
  parentTaskId := none
  estimatedHours := some 1.5
  actualHours := 0.25
  progress := 40
  aiGenerated := true
  aiConfidence := some 0.5
  assigneeIds := ["user_2"]
  createdAt := Moment.ofInstant Moment.epoch
  updatedAt := Moment.ofInstant Moment.epoch
  extra := [("points", .list [.int 3, .float 3.0, .null]), ("place", .obj [("x", .float 0.5)])]

/-- The same task with infinitely many hours spent on it. -/
def endlessTask : Task := { plannedTask with actualHours := Decimal.infinity false }

theorem stamped_epoch : (Moment.ofInstant Moment.epoch).Stamped ∧
    (Moment.ofInstant Moment.epoch).isNaive = false :=
  ⟨⟨⟨by decide, by rintro _ ⟨⟩; decide⟩, by rintro _ ⟨⟩; decide⟩, rfl⟩

theorem wellFormed_plannedTask : plannedTask.WellFormed where
  dueDate := by
    rintro _ ⟨⟩
    exact ⟨⟨⟨by decide, by rintro _ ⟨⟩; decide⟩, by rintro _ ⟨⟩; decide⟩, rfl⟩
  estimatedHours := by rintro _ ⟨⟩; decide +kernel
  actualHours := by decide +kernel
  progress := by decide
  aiConfidence := by rintro _ ⟨⟩; decide +kernel
  createdAt := stamped_epoch.1.toShown
  updatedAt := stamped_epoch.1.toShown
  extra := by decide

theorem check_plannedTask (s : Setting) : Task.check s plannedTask.value = .ok plannedTask :=
  Task.check_value wellFormed_plannedTask stamped_epoch stamped_epoch (by decide +kernel) s

theorem isFinite_endlessTask : Decimal.isFinite endlessTask.actualHours = false := by
  decide +kernel

theorem broken?_infinity :
    Bounds.broken? { least := some 0 } (.ofFloat (Decimal.infinity false)) = none := by
  decide +kernel

/-- An infinite number of hours passes the check of a task. -/
theorem check_endlessTask (s : Setting) : Task.check s endlessTask.value = .ok endlessTask := by
  have hwell : endlessTask.WellFormed := wellFormed_plannedTask.withHours broken?_infinity
  exact Task.check_value hwell stamped_epoch stamped_epoch (by decide +kernel) s

def emptyWorld : World := { clock := Moment.ofInstant Moment.epoch }

/-- The planned task comes back from an empty store. -/
theorem get_save_of_planned :
    ((get "task_1").run ((save plannedTask none).run emptyWorld).2).1 = .ok (some plannedTask) := by
  have hstorable : plannedTask.Storable :=
    ⟨by rintro _ ⟨⟩; decide +kernel, by decide +kernel, by decide +kernel⟩
  obtain ⟨-, -, -, hiff⟩ := get_save (s := { now := emptyWorld.clock }) (w := emptyWorld)
    stamped_epoch (check_plannedTask _) none rfl rfl (run_outages _ _)
  exact hiff.mpr hstorable

/-- A task that passed its check is saved, and cannot be read any more: its document has null for its
hours. -/
theorem get_save_of_endless :
    Task.check { now := emptyWorld.clock } endlessTask.value = .ok endlessTask ∧
      ((save endlessTask none).run emptyWorld).1 = .ok endlessTask ∧
      ∃ found, ((get "task_1").run ((save endlessTask none).run emptyWorld).2).1 =
        .error (.invalidRecord "Task" found) := by
  obtain ⟨w', hsave, -⟩ := run_save_document (w := emptyWorld) endlessTask none rfl
  have hget := run_get_of_save (t := endlessTask) (w := emptyWorld) none rfl rfl (run_outages _ _)
  refine ⟨check_endlessTask _, congrArg Prod.fst hsave, ?_⟩
  obtain ⟨found, hread⟩ := Task.check_storableFields_issues isFinite_endlessTask
    { now := ((save endlessTask none).run emptyWorld).2.clock }
  rw [hread] at hget
  exact ⟨found, congrArg Prod.fst hget⟩

end Tasks

end TaskAutomation
