import TaskAutomation.Execution
import TaskAutomation.Proofs.Task
import TaskAutomation.Proofs.Value.Finite

/-!
# Records of runs come back from their documents

* `ActionOutcome.Storable`, `Execution.Storable` : the numbers of a record are finite, and its moments are in
  whole minutes from UTC, as those of every record that passes its check are (`Execution.stamped_of_check`);
* `Execution.check_document` : such a record is read from its document as itself, at any time.
-/

namespace TaskAutomation

open Check

namespace ActionOutcome

/-- What the object of an outcome says all of. -/
structure Storable (o : ActionOutcome) : Prop where
  parameters : Value.allFiniteFields o.parameters = true
  result : ∀ fields ∈ o.result, Value.allFiniteFields fields = true
  executedAt : o.executedAt.Stamped

variable {o : ActionOutcome} {s : Setting}

theorem optional?_object {f : Fields} {name : String} {fields? : Option Fields}
    (hv : f.get? name = some (Occurrence.objectOrNull fields?))
    (h : ∀ fields ∈ fields?, Value.allFiniteFields fields = true) :
    optional? s f name object = .ok fields? := by
  cases fields? with
  | none => exact optional_of_get? hv rfl
  | some fields =>
    refine optional_of_get? hv ?_
    show (object s (.obj (Value.storableFields fields))).map some = _
    rw [Value.storableFields_of_allFinite _ (h fields rfl)]
    rfl

/-- An outcome that can be stored is read from its object as itself. -/
theorem Storable.check_value (h : o.Storable) : ActionOutcome.check s o.value = .ok o := by
  have hparameters : optional s o.fields "parameters" [] object = .ok o.parameters := by
    refine optional_of_get? rfl ?_
    rw [Value.storableFields_of_allFinite _ h.parameters]
    rfl
  have hresult : optional? s o.fields "result" object = .ok o.result := optional?_object rfl h.result
  have herror : optional? s o.fields "error" text = .ok o.error := Task.optional?_text rfl
  have hexecuted : optional s o.fields "executed_at" s.now moment = .ok o.executedAt :=
    optional_stamp rfl h.executedAt
  show ofFields s o.fields = _
  unfold ofFields
  rw [hparameters, hresult, herror, hexecuted]
  rfl

theorem storable_value (o : ActionOutcome) : o.value.storable = o.value := by
  have hresult : (Occurrence.objectOrNull o.result).storable = Occurrence.objectOrNull o.result := by
    cases o.result <;>
      simp only [Occurrence.objectOrNull, Value.storable, Value.storableFields_storableFields]
  show Value.storable (.obj o.fields) = .obj o.fields
  unfold fields
  simp only [Value.storable, Value.storableFields, Value.storableFields_storableFields, hresult,
    Value.storable_ofText?]

/-- The moment of an outcome that passes its check is in whole minutes from UTC. -/
theorem stamped_of_check {v : Value} (hs : s.now.Stamped) (h : ActionOutcome.check s v = .ok o) :
    o.executedAt.Stamped := by
  obtain ⟨f, -, h⟩ := Checked.andThen_eq_ok.mp h
  obtain ⟨_, executed, h₁, hexecuted, rfl⟩ := Checked.seq_eq_ok.mp h
  obtain ⟨_, error, h₂, -, rfl⟩ := Checked.seq_eq_ok.mp h₁
  obtain ⟨_, result, h₃, -, rfl⟩ := Checked.seq_eq_ok.mp h₂
  obtain ⟨_, parameters, h₄, -, rfl⟩ := Checked.seq_eq_ok.mp h₃
  obtain ⟨type, -, rfl⟩ := Checked.map_eq_ok.mp h₄
  exact stamped_of_optional hs hexecuted

end ActionOutcome

theorem ExecutionStatus.check_name (s : Setting) (status : ExecutionStatus) :
    ExecutionStatus.check s (.str status.name) = .ok status := by
  cases status <;> rfl

namespace Execution

/-- What the object of a record says all of. -/
structure Storable (e : Execution) : Prop where
  actions : ∀ o ∈ e.actions, o.Storable
  executedAt : e.executedAt.Stamped

variable {e : Execution} {s : Setting}

theorem storableFields_fields (e : Execution) : Value.storableFields e.fields = e.fields := by
  have hactions : Value.storableList (e.actions.map ActionOutcome.value) =
      e.actions.map ActionOutcome.value := by
    rw [Value.storableList_map]
    exact List.map_congr_left fun o _ => o.storable_value
  unfold fields
  simp only [Value.storableFields, Value.storable, Value.storable_ofText?, hactions]

/-- A record that can be stored is read from its document as itself. -/
theorem Storable.check_document (h : e.Storable) :
    Execution.check s (.obj (Value.storableFields e.fields)) = .ok e := by
  rw [storableFields_fields]
  have hactions : optional s e.fields "executed_actions" [] (items ActionOutcome.check) = .ok e.actions := by
    refine optional_of_get? rfl ?_
    have hitems : itemsFrom ActionOutcome.check s 0 (e.actions.map ActionOutcome.value) =
        .ok (e.actions.map fun o => o) := itemsFrom_map (fun o ho => (h.actions o ho).check_value) 0
    rwa [List.map_id'] at hitems
  have hstatus : required s e.fields "status" ExecutionStatus.check = .ok e.status :=
    required_of_get? rfl (ExecutionStatus.check_name s e.status)
  have herror : optional? s e.fields "error_message" text = .ok e.error := Task.optional?_text rfl
  have hexecuted : optional s e.fields "executed_at" s.now moment = .ok e.executedAt :=
    optional_stamp rfl h.executedAt
  show ofFields s e.fields = _
  unfold ofFields
  rw [hactions, hstatus, herror, hexecuted]
  rfl

/-- The moments of a record that passes its check are in whole minutes from UTC. -/
theorem stamped_of_check {v : Value} (hs : s.now.Stamped) (h : Execution.check s v = .ok e) :
    e.executedAt.Stamped ∧ ∀ o ∈ e.actions, o.executedAt.Stamped := by
  obtain ⟨f, -, h⟩ := Checked.andThen_eq_ok.mp h
  obtain ⟨_, executed, h₁, hexecuted, rfl⟩ := Checked.seq_eq_ok.mp h
  obtain ⟨_, error, h₂, -, rfl⟩ := Checked.seq_eq_ok.mp h₁
  obtain ⟨_, status, h₃, -, rfl⟩ := Checked.seq_eq_ok.mp h₂
  obtain ⟨_, actions, h₄, hactions, rfl⟩ := Checked.seq_eq_ok.mp h₃
  obtain ⟨_, trigger, h₅, -, rfl⟩ := Checked.seq_eq_ok.mp h₄
  obtain ⟨_, taskId, h₆, -, rfl⟩ := Checked.seq_eq_ok.mp h₅
  obtain ⟨_, userId, h₇, -, rfl⟩ := Checked.seq_eq_ok.mp h₆
  obtain ⟨_, ruleId, h₈, -, rfl⟩ := Checked.seq_eq_ok.mp h₇
  obtain ⟨id, -, rfl⟩ := Checked.map_eq_ok.mp h₈
  refine ⟨stamped_of_optional hs hexecuted, fun o ho => ?_⟩
  rcases optional_eq_ok hactions with hnone | ⟨v, hv⟩
  · rw [hnone] at ho
    cases ho
  · obtain ⟨w, hw⟩ := items_eq_ok hv o ho
    exact ActionOutcome.stamped_of_check hs hw

end Execution

end TaskAutomation
