import TaskAutomation.Notice
import TaskAutomation.Proofs.Task
import TaskAutomation.Proofs.Value.Finite

/-!
# Notices come back from their documents

* `Notification.parts_of_check` : what some fields of a notification are read from;
* `Notification.check_document`, `Activity.check_document` : a notice whose moment is in whole minutes from UTC
  and whose numbers are finite is read from its document as itself.
-/

namespace TaskAutomation

open Check

namespace Notification

variable {s : Setting} {f : Fields} {n : Notification}

/-- What some fields of a notification are read from. -/
theorem parts_of_check (h : Notification.check s (.obj f) = .ok n) :
    required s f "user_id" text = .ok n.userId
      ∧ optional? s f "related_task_id" text = .ok n.relatedTaskId
      ∧ optional s f "created_at" s.now moment = .ok n.createdAt := by
  replace h : ofFields s f = .ok n := h
  obtain ⟨_, created, h₁, hcreated, rfl⟩ := Checked.seq_eq_ok.mp h
  obtain ⟨_, read, h₂, -, rfl⟩ := Checked.seq_eq_ok.mp h₁
  obtain ⟨_, url, h₃, -, rfl⟩ := Checked.seq_eq_ok.mp h₂
  obtain ⟨_, task, h₄, htask, rfl⟩ := Checked.seq_eq_ok.mp h₃
  obtain ⟨_, type, h₅, -, rfl⟩ := Checked.seq_eq_ok.mp h₄
  obtain ⟨_, message, h₆, -, rfl⟩ := Checked.seq_eq_ok.mp h₅
  obtain ⟨_, title, h₇, -, rfl⟩ := Checked.seq_eq_ok.mp h₆
  obtain ⟨_, user, h₈, huser, rfl⟩ := Checked.seq_eq_ok.mp h₇
  obtain ⟨id, -, rfl⟩ := Checked.map_eq_ok.mp h₈
  exact ⟨huser, htask, hcreated⟩

/-- A notification whose moment is in whole minutes from UTC is read from its document as itself. -/
theorem check_document (h : n.createdAt.Stamped) (s : Setting) :
    Notification.check s (.obj (Value.storableFields n.fields)) = .ok n := by
  have hfields : Value.storableFields n.fields = n.fields := by
    simp only [fields, Value.storableFields, Value.storable_ofText?, Value.storable]
  rw [hfields]
  have htask : optional? s n.fields "related_task_id" text = .ok n.relatedTaskId := Task.optional?_text rfl
  have hurl : optional? s n.fields "action_url" text = .ok n.actionUrl := Task.optional?_text rfl
  have hcreated : Check.optional s n.fields "created_at" s.now moment = .ok n.createdAt :=
    optional_stamp rfl h
  show ofFields s n.fields = _
  unfold ofFields
  rw [htask, hurl, hcreated]
  rfl

end Notification

namespace Activity

variable {a : Activity}

/-- An entry of finite numbers whose moment is in whole minutes from UTC is read from its document as
itself. -/
theorem check_document (h : a.createdAt.Stamped) (hfinite : Value.allFiniteFields a.metadata = true)
    (s : Setting) : Activity.check s (.obj (Value.storableFields a.fields)) = .ok a := by
  have hfields : Value.storableFields a.fields = a.fields := by
    simp only [fields, Value.storableFields, Value.storable, Value.storableFields_storableFields]
  rw [hfields]
  have hmetadata : Check.optional s a.fields "metadata" [] object = .ok a.metadata := by
    refine optional_of_get? rfl ?_
    rw [Value.storableFields_of_allFinite _ hfinite]
    rfl
  have hcreated : Check.optional s a.fields "created_at" s.now moment = .ok a.createdAt :=
    optional_stamp rfl h
  show ofFields s a.fields = _
  unfold ofFields
  rw [hmetadata, hcreated]
  rfl

end Activity

end TaskAutomation
