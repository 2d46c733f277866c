import TaskAutomation.Proofs.Check.Fields
import TaskAutomation.Proofs.Value.Fields
import TaskAutomation.Proofs.Value.Finite
import TaskAutomation.Task

/-!
# Tasks and their objects

* `Task.WellFormed` : what every task that passes its check has: numbers within their bounds, moments
  that a clock can show, a due date that its stamp says all of, and no second value for a field of
  its own (`Task.wellFormed_of_check`);
* `Task.AllFinite` : the numbers among a task's own fields are finite;
* `Task.ofFields_of_get?` : a task read from the fields of another one, a few of which were changed;
* `Task.reread` : the task as it is read back from its object; `Task.check_fields` : a well-formed
  task of finite numbers is read back so, at any time, and its due date is the same.
-/

namespace TaskAutomation

open Check

namespace Task

/-- What every task that passes its check has. -/
structure WellFormed (t : Task) : Prop where
  dueDate : ∀ m ∈ t.dueDate, m.Stamped ∧ m.isNaive = false
  estimatedHours : ∀ x ∈ t.estimatedHours, Bounds.broken? { least := some 0 } (.ofFloat x) = none
  actualHours : Bounds.broken? { least := some 0 } (.ofFloat t.actualHours) = none
  progress : Bounds.broken? { least := some 0, most := some 100 } (.ofInt t.progress) = none
  aiConfidence : ∀ x ∈ t.aiConfidence,
    Bounds.broken? { least := some 0, most := some 1 } (.ofFloat x) = none
  createdAt : t.createdAt.Shown
  updatedAt : t.updatedAt.Shown
  extra : ∀ field ∈ t.extra, field.1 ∉ ownFields

/-- The numbers among the task's own fields are finite. -/
def AllFinite (t : Task) : Prop := Value.allFiniteFields t.fields = true

instance (t : Task) : Decidable t.AllFinite := inferInstanceAs (Decidable (_ = true))

/-- The task as it is read back from its object. -/
def reread (t : Task) : Task :=
  { t with
    createdAt := t.createdAt.toMinute.inUtc
    updatedAt := t.updatedAt.toMinute.inUtc
    extra := Value.storableFields t.extra }

/-! ## Leaves -/

variable {s : Setting} {f : Fields} {name : String}

theorem status_check (s : Setting) (x : TaskStatus) : TaskStatus.check s (.str x.name) = .ok x := by
  cases x <;> rfl

theorem priority_check (s : Setting) (x : TaskPriority) :
    TaskPriority.check s (.str x.name) = .ok x := by
  cases x <;> rfl

theorem optional?_text {t? : Option String} (hv : f.get? name = some (.ofText? t?)) :
    optional? s f name text = .ok t? := by
  cases t? with
  | none => exact optional_of_get? hv rfl
  | some t => exact optional_of_get? hv rfl

theorem optional?_number {b : Bounds} {x? : Option Float}
    (hv : f.get? name = some (numberOrNull x?)) (h : ∀ x ∈ x?, b.broken? (.ofFloat x) = none) :
    optional? s f name (boundedNumber b) = .ok x? := by
  cases x? with
  | none => exact optional_of_get? hv rfl
  | some x =>
    refine optional_of_get? hv ?_
    show (boundedNumber b s (.float x)).map some = _
    rw [boundedNumber_of_broken? (h x rfl)]
    rfl

theorem broken?_zero : Bounds.broken? { least := some 0 } (.ofFloat 0.0) = none := by decide +kernel

theorem inUtc_of_aware {m : Moment} (h : m.isNaive = false) : m.inUtc = m := by
  obtain ⟨wall, offset⟩ := m
  cases offset with
  | none => cases h
  | some o => rfl

/-- A due date in whole minutes from UTC is read back as it is. -/
theorem optional?_dueDate {m? : Option Moment} (hv : f.get? name = some (momentOrNull m?))
    (h : ∀ m ∈ m?, m.Stamped ∧ m.isNaive = false) : optional? s f name momentInUtc = .ok m? := by
  cases m? with
  | none => exact optional_of_get? hv rfl
  | some m =>
    obtain ⟨hstamped, haware⟩ := h m rfl
    refine optional_of_get? hv ?_
    show (momentInUtc s (.str m.stamp)).map some = _
    rw [momentInUtc_stamp hstamped.toShown, hstamped.toMinute_eq, inUtc_of_aware haware]
    rfl

/-! ## Tasks -/

theorem others_ownFields (own : Fields) {extra : Fields} (hown : others ownFields own = [])
    (h : ∀ field ∈ extra, field.1 ∉ ownFields) : others ownFields (own ++ extra) = extra := by
  unfold others at hown ⊢
  rw [List.filter_append, hown, List.nil_append, List.filter_eq_self]
  intro field hfield
  simpa using h field hfield

theorem others_put {names : List String} (hname : name ∈ names) (v : Value) :
    others names (Fields.put f name v) = others names f := by
  unfold others
  induction f with
  | nil => simp [Fields.put, hname]
  | cons field rest ih =>
    obtain ⟨k, old⟩ := field
    rw [Fields.put]
    split
    · next hk =>
      rw [beq_iff_eq] at hk
      simp [hk, hname]
    · rw [List.filter_cons, List.filter_cons, ih]

theorem fst_mem_storableFields {extra : Fields} {field : String × Value}
    (h : field ∈ Value.storableFields extra) : ∃ field' ∈ extra, field'.1 = field.1 := by
  induction extra with
  | nil => cases h
  | cons head rest ih =>
    obtain ⟨k, v⟩ := head
    rw [Value.storableFields] at h
    rcases List.mem_cons.mp h with rfl | h
    · exact ⟨(k, v), List.mem_cons_self, rfl⟩
    · obtain ⟨field', hmem, heq⟩ := ih h
      exact ⟨field', List.mem_cons_of_mem _ hmem, heq⟩

theorem WellFormed.storable_extra {t : Task} (h : t.WellFormed) :
    ∀ field ∈ Value.storableFields t.extra, field.1 ∉ ownFields := by
  intro field hfield
  obtain ⟨field', hmem, heq⟩ := fst_mem_storableFields hfield
  rw [← heq]
  exact h.extra field' hmem

/-- Fields that say what those of a well-formed task say, but for five of them: these are checked, and
the rest is the task. -/
theorem ofFields_of_get? {t : Task} (h : t.WellFormed) (s : Setting)
    (hsame : ∀ name ∉ ["status", "priority", "tag", "due_date", "estimated_hours"],
      f.get? name = t.fields.get? name)
    (hextra : others ownFields f = Value.storableFields t.extra) :
    ofFields s f = (fun status priority tag due hours => { t.reread with
        status, priority, tag, dueDate := due, estimatedHours := hours })
      <$> optional s f "status" .pending TaskStatus.check
      <*> optional s f "priority" .medium TaskPriority.check
      <*> optional? s f "tag" text
      <*> optional? s f "due_date" momentInUtc
      <*> optional? s f "estimated_hours" (boundedNumber { least := some 0 }) := by
  have hid : required s f "id" text = .ok t.id := required_of_get? (hsame _ (by decide)) rfl
  have huser : required s f "user_id" text = .ok t.userId :=
    required_of_get? (hsame _ (by decide)) rfl
  have hclient : optional? s f "client_id" text = .ok t.clientId :=
    optional?_text (hsame _ (by decide))
  have htitle : required s f "title" text = .ok t.title := required_of_get? (hsame _ (by decide)) rfl
  have hdescription : optional? s f "description" text = .ok t.description :=
    optional?_text (hsame _ (by decide))
  have hparent : optional? s f "parent_task_id" text = .ok t.parentTaskId :=
    optional?_text (hsame _ (by decide))
  have hactual : optional s f "actual_hours" 0.0 (boundedNumber { least := some 0 }) =
      .ok t.actualHours :=
    optional_of_get? (hsame _ (by decide)) (boundedNumber_of_broken? h.actualHours)
  have hprogress : optional s f "progress_percentage" 0
      (boundedInteger { least := some 0, most := some 100 }) = .ok t.progress :=
    optional_of_get? (hsame _ (by decide)) (boundedInteger_of_broken? h.progress)
  have hgenerated : optional s f "ai_generated" false boolean = .ok t.aiGenerated :=
    optional_of_get? (hsame _ (by decide)) rfl
  have hconfidence : optional? s f "ai_confidence_score"
      (boundedNumber { least := some 0, most := some 1 }) = .ok t.aiConfidence :=
    optional?_number (hsame _ (by decide)) h.aiConfidence
  have hassignees : optional s f "assignee_ids" [] (items text) = .ok t.assigneeIds := by
    have hitems : itemsFrom text s 0 (t.assigneeIds.map .str) = .ok (t.assigneeIds.map fun a => a) :=
      itemsFrom_map (fun a _ => rfl) 0
    rw [List.map_id'] at hitems
    exact optional_of_get? (hsame _ (by decide)) hitems
  have hcreated : optional s f "created_at" s.now momentInUtc = .ok t.createdAt.toMinute.inUtc :=
    optional_of_get? (hsame _ (by decide)) (momentInUtc_stamp h.createdAt)
  have hupdated : optional s f "updated_at" s.now momentInUtc = .ok t.updatedAt.toMinute.inUtc :=
    optional_of_get? (hsame _ (by decide)) (momentInUtc_stamp h.updatedAt)
  unfold ofFields
  rw [hid, huser, hclient, htitle, hdescription, hparent, hactual, hprogress, hgenerated, hconfidence,
    hassignees, hcreated, hupdated, hextra]
  -- the checks that are left come one after the other on both sides, and so do their issues
  cases optional s f "status" .pending TaskStatus.check <;>
    cases optional s f "priority" .medium TaskPriority.check <;>
    cases optional? s f "tag" text <;>
    cases optional? s f "due_date" momentInUtc <;>
    cases optional? s f "estimated_hours" (boundedNumber { least := some 0 }) <;> rfl

/-- A well-formed task is read back from its fields, at any time. -/
theorem ofFields_fields {t : Task} (h : t.WellFormed) (s : Setting) :
    ofFields s t.fields = .ok t.reread := by
  have hstatus : optional s t.fields "status" .pending TaskStatus.check = .ok t.status :=
    optional_of_get? rfl (status_check s t.status)
  have hpriority : optional s t.fields "priority" .medium TaskPriority.check = .ok t.priority :=
    optional_of_get? rfl (priority_check s t.priority)
  have htag : optional? s t.fields "tag" text = .ok t.tag := optional?_text rfl
  have hdue : optional? s t.fields "due_date" momentInUtc = .ok t.dueDate :=
    optional?_dueDate rfl h.dueDate
  have hestimated : optional? s t.fields "estimated_hours" (boundedNumber { least := some 0 }) =
      .ok t.estimatedHours := optional?_number rfl h.estimatedHours
  have hextra : others ownFields t.fields = Value.storableFields t.extra :=
    others_ownFields _ rfl h.storable_extra
  rw [ofFields_of_get? h s (fun _ _ => rfl) hextra, hstatus, hpriority, htag, hdue, hestimated]
  rfl

/-- A well-formed task of finite numbers is read back from its object as it is stored. -/
theorem check_fields {t : Task} (h : t.WellFormed) (hfinite : t.AllFinite) (s : Setting) :
    Task.check s (.obj (Value.storableFields t.fields)) = .ok t.reread := by
  rw [Value.storableFields_of_allFinite t.fields hfinite]
  exact ofFields_fields h s

/-- Moments in whole minutes from UTC and other fields that can be stored are read back as they are. -/
theorem reread_eq {t : Task} (hcreated : t.createdAt.Stamped ∧ t.createdAt.isNaive = false)
    (hupdated : t.updatedAt.Stamped ∧ t.updatedAt.isNaive = false)
    (hextra : Value.allFiniteFields t.extra = true) : t.reread = t := by
  unfold reread
  rw [hcreated.1.toMinute_eq, hupdated.1.toMinute_eq, inUtc_of_aware hcreated.2,
    inUtc_of_aware hupdated.2, Value.storableFields_of_allFinite _ hextra]

theorem WellFormed.reread {t : Task} (h : t.WellFormed) : t.reread.WellFormed where
  dueDate := h.dueDate
  estimatedHours := h.estimatedHours
  actualHours := h.actualHours
  progress := h.progress
  aiConfidence := h.aiConfidence
  createdAt := h.createdAt.toMinute.inUtc
  updatedAt := h.updatedAt.toMinute.inUtc
  extra := h.storable_extra

/-- Where the parts of a task that passes its check come from, as far as they are checked. -/
theorem parts_of_check {s : Setting} {v : Value} {t : Task} (h : Task.check s v = .ok t) :
    ∃ f : Fields, v = .obj f ∧ required s f "id" text = .ok t.id
      ∧ optional? s f "due_date" momentInUtc = .ok t.dueDate
      ∧ optional? s f "estimated_hours" (boundedNumber { least := some 0 }) = .ok t.estimatedHours
      ∧ optional s f "actual_hours" 0.0 (boundedNumber { least := some 0 }) = .ok t.actualHours
      ∧ optional s f "progress_percentage" 0 (boundedInteger { least := some 0, most := some 100 })
        = .ok t.progress
      ∧ optional? s f "ai_confidence_score" (boundedNumber { least := some 0, most := some 1 })
        = .ok t.aiConfidence
      ∧ optional s f "created_at" s.now momentInUtc = .ok t.createdAt
      ∧ optional s f "updated_at" s.now momentInUtc = .ok t.updatedAt
      ∧ others ownFields f = t.extra := by
  obtain ⟨f, hrecord, h⟩ := Checked.andThen_eq_ok.mp h
  obtain ⟨_, extra, h₁, hextra, rfl⟩ := Checked.seq_eq_ok.mp h
  obtain ⟨_, updated, h₂, hupdated, rfl⟩ := Checked.seq_eq_ok.mp h₁
  obtain ⟨_, created, h₃, hcreated, rfl⟩ := Checked.seq_eq_ok.mp h₂
  obtain ⟨_, assignees, h₄, -, rfl⟩ := Checked.seq_eq_ok.mp h₃
  obtain ⟨_, confidence, h₅, hconfidence, rfl⟩ := Checked.seq_eq_ok.mp h₄
  obtain ⟨_, generated, h₆, -, rfl⟩ := Checked.seq_eq_ok.mp h₅
  obtain ⟨_, progress, h₇, hprogress, rfl⟩ := Checked.seq_eq_ok.mp h₆
  obtain ⟨_, actual, h₈, hactual, rfl⟩ := Checked.seq_eq_ok.mp h₇
  obtain ⟨_, estimated, h₉, hestimated, rfl⟩ := Checked.seq_eq_ok.mp h₈
  obtain ⟨_, parent, h₁₀, -, rfl⟩ := Checked.seq_eq_ok.mp h₉
  obtain ⟨_, due, h₁₁, hdue, rfl⟩ := Checked.seq_eq_ok.mp h₁₀
  obtain ⟨_, tag, h₁₂, -, rfl⟩ := Checked.seq_eq_ok.mp h₁₁
  obtain ⟨_, priority, h₁₃, -, rfl⟩ := Checked.seq_eq_ok.mp h₁₂
  obtain ⟨_, status, h₁₄, -, rfl⟩ := Checked.seq_eq_ok.mp h₁₃
  obtain ⟨_, description, h₁₅, -, rfl⟩ := Checked.seq_eq_ok.mp h₁₄
  obtain ⟨_, title, h₁₆, -, rfl⟩ := Checked.seq_eq_ok.mp h₁₅
  obtain ⟨_, client, h₁₇, -, rfl⟩ := Checked.seq_eq_ok.mp h₁₆
  obtain ⟨_, userId, h₁₈, -, rfl⟩ := Checked.seq_eq_ok.mp h₁₇
  obtain ⟨id, hid, rfl⟩ := Checked.map_eq_ok.mp h₁₈
  cases hextra
  exact ⟨f, record_eq_ok hrecord, hid, hdue, hestimated, hactual, hprogress, hconfidence, hcreated, hupdated, rfl⟩

/-- A task that passes its check is well formed. -/
theorem wellFormed_of_check {s : Setting} {v : Value} {t : Task} (hs : s.now.Shown)
    (h : Task.check s v = .ok t) : t.WellFormed := by
  obtain ⟨f, -, -, hdue, hestimated, hactual, hprogress, hconfidence, hcreated, hupdated, hextra⟩ :=
    parts_of_check h
  have hmoment : ∀ {name m}, optional s f name s.now momentInUtc = .ok m → m.Shown := by
    intro name m hm
    rcases optional_eq_ok hm with rfl | ⟨v, hv⟩
    · exact hs
    · exact (stamped_of_momentInUtc hv).toShown
  refine ⟨?_, ?_, ?_, ?_, ?_, hmoment hcreated, hmoment hupdated, ?_⟩
  · intro m hm
    obtain ⟨v, hv⟩ := optional?_eq_ok hdue m hm
    exact ⟨stamped_of_momentInUtc hv, aware_of_momentInUtc hv⟩
  · intro x hx
    obtain ⟨v, hv⟩ := optional?_eq_ok hestimated x hx
    exact broken?_of_boundedNumber hv
  · rcases optional_eq_ok hactual with hzero | ⟨v, hv⟩
    · rw [hzero]
      exact broken?_zero
    · exact broken?_of_boundedNumber hv
  · rcases optional_eq_ok hprogress with hzero | ⟨v, hv⟩
    · rw [hzero]
      decide
    · exact broken?_of_boundedInteger hv
  · intro x hx
    obtain ⟨v, hv⟩ := optional?_eq_ok hconfidence x hx
    exact broken?_of_boundedNumber hv
  · intro field hfield
    rw [← hextra] at hfield
    simpa using (List.mem_filter.mp hfield).2

end Task

end TaskAutomation
