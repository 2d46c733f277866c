import TaskAutomation.Proofs.Check.Fields
import TaskAutomation.Proofs.Value.Finite
import TaskAutomation.Rule

/-!
# Rules and their objects

* `Rule.WellFormed` : what every rule that passes its check has: an action at least, each with a
  word, a count that is not negative, and moments that a clock can show
  (`Rule.wellFormed_of_check`);
* `Rule.reread` : the rule as it is read back from its object; `Rule.check_fields` : a well-formed
  rule is read back so, at any time;
* `Rule.WellFormed.reread` : and is well formed again.
-/

namespace TaskAutomation

open Check

/-! ## Actions -/

namespace Action

/-- The action as it is read back from its object. -/
def reread (a : Action) : Action := { a with parameters := Value.storableFields a.parameters }

theorem check_value {a : Action} (h : a.type ≠ "") (s : Setting) :
    Action.check s a.value = .ok a.reread := by
  have htype : required s a.fields "type" (textWithin 1 none) = .ok a.type :=
    required_of_get? rfl (textWithin_one a.type h)
  have hparameters : optional s a.fields "parameters" [] object =
      .ok (Value.storableFields a.parameters) := optional_of_get? rfl rfl
  show ofFields s a.fields = _
  unfold ofFields
  rw [htype, hparameters]
  rfl

theorem storable_value (a : Action) : a.value.storable = a.value := by
  show Value.storable (.obj a.fields) = .obj a.fields
  unfold fields
  simp only [Value.storable, Value.storableFields, Value.storableFields_storableFields]

/-- Where the parts of an action that passes its check come from. -/
theorem parts_of_check {s : Setting} {v : Value} {a : Action} (h : Action.check s v = .ok a) :
    ∃ fields, v = .obj fields ∧ Fields.get? fields "type" = some (.str a.type) ∧
      (Fields.get? fields "parameters" = some (.obj a.parameters) ∨
        Fields.get? fields "parameters" = none ∧ a.parameters = []) := by
  obtain ⟨fields, hrecord, hparts⟩ := Checked.andThen_eq_ok.mp h
  obtain ⟨mk, parameters, hmk, hparameters, rfl⟩ := Checked.seq_eq_ok.mp hparts
  obtain ⟨type, htype, rfl⟩ := Checked.map_eq_ok.mp hmk
  obtain ⟨w, hw, htext⟩ := get?_of_required htype
  refine ⟨fields, record_eq_ok hrecord, hw.trans (by rw [eq_of_textWithin htext]), ?_⟩
  rcases get?_of_optional hparameters with ⟨p, hp, hobject⟩ | habsent
  · exact .inl (hp.trans (congrArg some (object_eq_ok hobject)))
  · exact .inr habsent

theorem type_ne_of_check {s : Setting} {v : Value} {a : Action} (h : Action.check s v = .ok a) :
    a.type ≠ "" := by
  obtain ⟨f, -, h⟩ := Checked.andThen_eq_ok.mp h
  obtain ⟨g, parameters, hg, -, rfl⟩ := Checked.seq_eq_ok.mp h
  obtain ⟨t, ht, rfl⟩ := Checked.map_eq_ok.mp hg
  obtain ⟨v, hv⟩ := required_eq_ok ht
  exact ne_empty_of_textWithin hv

end Action

theorem Trigger.name_injective {t u : Trigger} (h : t.name = u.name) : t = u := by
  cases t <;> cases u <;> first | rfl | exact absurd h (by decide)

/-! ## Rules -/

namespace Rule

/-- What every rule that passes its check has. -/
structure WellFormed (r : Rule) : Prop where
  actions : r.actions ≠ []
  types : ∀ a ∈ r.actions, a.type ≠ ""
  count : 0 ≤ r.executionCount
  lastExecuted : ∀ m ∈ r.lastExecuted, m.Shown
  createdAt : r.createdAt.Shown
  updatedAt : r.updatedAt.Shown

/-- The rule as it is read back from its object. -/
def reread (r : Rule) : Rule :=
  { r with
    conditions := Value.storableFields r.conditions
    actions := r.actions.map Action.reread
    lastExecuted := r.lastExecuted.map Moment.toMinute
    createdAt := r.createdAt.toMinute
    updatedAt := r.updatedAt.toMinute }

theorem trigger_check (s : Setting) (t : Trigger) : Trigger.check s (.str t.name) = .ok t := by
  cases t <;> rfl

theorem optional?_moment {s : Setting} {f : Fields} {name : String} {m? : Option Moment}
    (hv : f.get? name = some (Task.momentOrNull m?)) (h : ∀ m ∈ m?, m.Shown) :
    optional? s f name moment = .ok (m?.map Moment.toMinute) := by
  cases m? with
  | none => exact optional_of_get? hv rfl
  | some m =>
    refine optional_of_get? hv ?_
    show (moment s (.str m.stamp)).map some = _
    rw [moment_stamp (h m rfl)]
    rfl

/-- A well-formed rule is read back from its fields, at any time. -/
theorem ofFields_fields {r : Rule} (h : r.WellFormed) (s : Setting) :
    ofFields s r.fields = .ok r.reread := by
  have hid : required s r.fields "id" text = .ok r.id := required_of_get? rfl rfl
  have huser : required s r.fields "user_id" text = .ok r.userId := required_of_get? rfl rfl
  have hname : required s r.fields "name" text = .ok r.name := required_of_get? rfl rfl
  have hdescription : optional s r.fields "description" "" text = .ok r.description :=
    optional_of_get? rfl rfl
  have htrigger : required s r.fields "trigger" Trigger.check = .ok r.trigger :=
    required_of_get? rfl (trigger_check s r.trigger)
  have hconditions : optional s r.fields "conditions" [] object =
      .ok (Value.storableFields r.conditions) := optional_of_get? rfl rfl
  have hactions : required s r.fields "actions" (itemsAtLeast 1 Action.check) =
      .ok (r.actions.map Action.reread) := by
    refine required_of_get? rfl (itemsAtLeast_map (fun a ha => ?_) ?_)
    · exact Action.check_value (h.types a ha) s
    · exact List.length_pos_iff.mpr h.actions
  have hactive : optional s r.fields "is_active" true boolean = .ok r.isActive :=
    optional_of_get? rfl rfl
  have hcount : optional s r.fields "execution_count" 0 (boundedInteger { least := some 0 }) =
      .ok r.executionCount := optional_of_get? rfl (boundedInteger_of_le h.count)
  have hlast : optional? s r.fields "last_executed" moment =
      .ok (r.lastExecuted.map Moment.toMinute) := optional?_moment rfl h.lastExecuted
  have hcreated : optional s r.fields "created_at" s.now moment = .ok r.createdAt.toMinute :=
    optional_of_get? rfl (moment_stamp h.createdAt)
  have hupdated : optional s r.fields "updated_at" s.now moment = .ok r.updatedAt.toMinute :=
    optional_of_get? rfl (moment_stamp h.updatedAt)
  unfold ofFields
  rw [hid, huser, hname, hdescription, htrigger, hconditions, hactions, hactive, hcount, hlast,
    hcreated, hupdated]
  rfl

theorem storableFields_fields (r : Rule) : Value.storableFields r.fields = r.fields := by
  have hactions : Value.storableList (r.actions.map Action.value) = r.actions.map Action.value := by
    rw [Value.storableList_map]
    exact List.map_congr_left fun a _ => a.storable_value
  have hlast : (Task.momentOrNull r.lastExecuted).storable = Task.momentOrNull r.lastExecuted := by
    cases r.lastExecuted <;> simp only [Task.momentOrNull, Value.storable]
  unfold fields
  simp only [Value.storableFields, Value.storable, Value.storableFields_storableFields, hactions,
    hlast]

/-- A well-formed rule is read back from its object as it is stored. -/
theorem check_fields {r : Rule} (h : r.WellFormed) (s : Setting) :
    Rule.check s (.obj (Value.storableFields r.fields)) = .ok r.reread := by
  rw [storableFields_fields]
  exact ofFields_fields h s

theorem WellFormed.reread {r : Rule} (h : r.WellFormed) : r.reread.WellFormed where
  actions := by
    intro hnil
    exact h.actions (List.map_eq_nil_iff.mp hnil)
  types := by
    intro a ha
    obtain ⟨b, hb, rfl⟩ := List.mem_map.mp ha
    exact h.types b hb
  count := h.count
  lastExecuted := by
    intro m hm
    obtain ⟨n, hn, rfl⟩ := Option.map_eq_some_iff.mp hm
    exact (h.lastExecuted n hn).toMinute
  createdAt := h.createdAt.toMinute
  updatedAt := h.updatedAt.toMinute

/-- Where the parts of a rule that passes its check come from, as far as they are checked. -/
theorem parts_of_check {s : Setting} {v : Value} {r : Rule} (h : Rule.check s v = .ok r) :
    ∃ f : Fields, required s f "actions" (itemsAtLeast 1 Action.check) = .ok r.actions
      ∧ optional s f "execution_count" 0 (boundedInteger { least := some 0 }) = .ok r.executionCount
      ∧ optional? s f "last_executed" moment = .ok r.lastExecuted
      ∧ optional s f "created_at" s.now moment = .ok r.createdAt
      ∧ optional s f "updated_at" s.now moment = .ok r.updatedAt := by
  obtain ⟨f, -, h⟩ := Checked.andThen_eq_ok.mp h
  obtain ⟨_, updated, h₁, hupdated, rfl⟩ := Checked.seq_eq_ok.mp h
  obtain ⟨_, created, h₂, hcreated, rfl⟩ := Checked.seq_eq_ok.mp h₁
  obtain ⟨_, last, h₃, hlast, rfl⟩ := Checked.seq_eq_ok.mp h₂
  obtain ⟨_, count, h₄, hcount, rfl⟩ := Checked.seq_eq_ok.mp h₃
  obtain ⟨_, isActive, h₅, -, rfl⟩ := Checked.seq_eq_ok.mp h₄
  obtain ⟨_, actions, h₆, hactions, rfl⟩ := Checked.seq_eq_ok.mp h₅
  obtain ⟨_, conditions, h₇, -, rfl⟩ := Checked.seq_eq_ok.mp h₆
  obtain ⟨_, trigger, h₈, -, rfl⟩ := Checked.seq_eq_ok.mp h₇
  obtain ⟨_, description, h₉, -, rfl⟩ := Checked.seq_eq_ok.mp h₈
  obtain ⟨_, name, h₁₀, -, rfl⟩ := Checked.seq_eq_ok.mp h₉
  obtain ⟨_, userId, h₁₁, -, rfl⟩ := Checked.seq_eq_ok.mp h₁₀
  obtain ⟨id, -, rfl⟩ := Checked.map_eq_ok.mp h₁₁
  exact ⟨f, hactions, hcount, hlast, hcreated, hupdated⟩

theorem actions_ne_of_check {s : Setting} {v : Value} {r : Rule} (h : Rule.check s v = .ok r) :
    r.actions ≠ [] := by
  obtain ⟨f, hactions, -⟩ := parts_of_check h
  obtain ⟨v, hv⟩ := required_eq_ok hactions
  exact List.length_pos_iff.mp (itemsAtLeast_eq_ok hv).1

/-- A rule that passes its check is well formed. -/
theorem wellFormed_of_check {s : Setting} {v : Value} {r : Rule} (hs : s.now.Shown)
    (h : Rule.check s v = .ok r) : r.WellFormed := by
  have hne := actions_ne_of_check h
  obtain ⟨f, hactions, hcount, hlast, hcreated, hupdated⟩ := parts_of_check h
  have hmoment : ∀ {name m}, optional s f name s.now moment = .ok m → m.Shown := by
    intro name m hm
    rcases optional_eq_ok hm with rfl | ⟨v, hv⟩
    · exact hs
    · exact shown_of_moment hv
  refine ⟨hne, ?_, ?_, ?_, hmoment hcreated, hmoment hupdated⟩
  · intro a ha
    obtain ⟨v, hv⟩ := required_eq_ok hactions
    obtain ⟨w, hw⟩ := (itemsAtLeast_eq_ok hv).2 a ha
    exact Action.type_ne_of_check hw
  · rcases optional_eq_ok hcount with hzero | ⟨v, hv⟩
    · rw [hzero]
    · exact le_of_boundedInteger hv
  · intro m hm
    obtain ⟨v, hv⟩ := optional?_eq_ok hlast m hm
    exact shown_of_moment hv

end Rule

end TaskAutomation
