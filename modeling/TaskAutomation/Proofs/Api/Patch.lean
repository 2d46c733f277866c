import TaskAutomation.Proofs.Api.Later
import TaskAutomation.Proofs.Rules.Kept

/-!
# Patches of rules

A patch is read from a body, shown as an object again, and its fields that are not null are merged into
the object of a rule.

* `RulePatch.ReadFrom` : a patch has what a body gives for its fields, unless that is null;
* `RulePatch.applied p old now` : the rule that a patch makes of another; `RulePatch.merge_changes` : its
  object is what the merging comes to;
* `RulePatch.redefined_reread` : what is read of that object redefines a stored rule as the rule that the
  patch makes of it, with null for numbers of the patch that are not finite.
-/

namespace TaskAutomation.Api

open Check Program

namespace RulePatch

variable {p : RulePatch} {s : Setting} {f : Fields}

/-! ## Patches -/

/-- A patch gives for a field what the body gives for it, unless that is null. -/
def Supplies {α : Type} (s : Setting) (f : Fields) (name : String) (check : Checker α)
    (a? : Option α) : Prop :=
  ∀ a, a? = some a ↔ ∃ v, f.get? name = some v ∧ v ≠ .null ∧ check s v = .ok a

/-- Every field of the patch is what the body gives for it, unless that is null. -/
structure ReadFrom (p : RulePatch) (s : Setting) (f : Fields) : Prop where
  name : Supplies s f "name" (textWithin 1 (some 100)) p.name
  description : Supplies s f "description" (textWithin 0 (some 500)) p.description
  trigger : Supplies s f "trigger" Trigger.check p.trigger
  conditions : Supplies s f "conditions" object p.conditions
  actions : Supplies s f "actions" (items Action.check) p.actions
  isActive : Supplies s f "is_active" boolean p.isActive

theorem supplies_of_optional? {α : Type} {name : String} {check : Checker α} {a? : Option α}
    (h : optional? s f name check = .ok a?) : Supplies s f name check a? := by
  intro a
  rcases get?_of_optional h with ⟨v, hv, hcheck⟩ | ⟨hnone, rfl⟩
  · unfold nullable at hcheck
    split at hcheck
    · cases hcheck
      refine iff_of_false nofun ?_
      rintro ⟨_, hnull, hne, -⟩
      exact hne (Option.some.inj (hnull.symm.trans hv))
    · next hne =>
      obtain ⟨b, hb, rfl⟩ := Checked.map_eq_ok.mp hcheck
      constructor
      · rintro ⟨⟩
        exact ⟨v, hv, hne, hb⟩
      · rintro ⟨_, hv', -, ha⟩
        cases hv.symm.trans hv'
        cases hb.symm.trans ha
        rfl
  · refine iff_of_false nofun ?_
    rintro ⟨v, hv, -⟩
    cases hnone.symm.trans hv

theorem readFrom_of_check (h : RulePatch.check s (.obj f) = .ok p) : p.ReadFrom s f := by
  replace h : ofFields s f = .ok p := h
  obtain ⟨_, isActive, h₁, hactive, rfl⟩ := Checked.seq_eq_ok.mp h
  obtain ⟨_, actions, h₂, hactions, rfl⟩ := Checked.seq_eq_ok.mp h₁
  obtain ⟨_, conditions, h₃, hconditions, rfl⟩ := Checked.seq_eq_ok.mp h₂
  obtain ⟨_, trigger, h₄, htrigger, rfl⟩ := Checked.seq_eq_ok.mp h₃
  obtain ⟨_, description, h₅, hdescription, rfl⟩ := Checked.seq_eq_ok.mp h₄
  obtain ⟨name, hname, rfl⟩ := Checked.map_eq_ok.mp h₅
  exact ⟨supplies_of_optional? hname, supplies_of_optional? hdescription,
    supplies_of_optional? htrigger, supplies_of_optional? hconditions,
    supplies_of_optional? hactions, supplies_of_optional? hactive⟩

/-- A patch is read the same at any time. -/
theorem check_eq (now later : Moment) (v : Value) :
    RulePatch.check { now, readable := true } v =
      RulePatch.check { now := later, readable := true } v := by
  have hitems : nullable (items Action.check) { now, readable := true } =
      nullable (items Action.check) { now := later, readable := true } := by
    funext v
    unfold nullable items
    cases v with
    | list vs =>
      have hitem (v : Value) : Action.check { now, readable := true } v =
          Action.check { now := later, readable := true } v := rfl
      have hlist := itemsFrom_congr hitem 0 vs
      dsimp only
      rw [hlist]
    | _ => rfl
  have hactions (f : Fields) : optional? { now, readable := true } f "actions" (items Action.check) =
      optional? { now := later, readable := true } f "actions" (items Action.check) := by
    unfold optional? Check.optional
    rw [hitems]
  cases v with
  | obj f =>
    show ofFields { now, readable := true } f = ofFields { now := later, readable := true } f
    unfold ofFields
    rw [hactions]
    rfl
  | _ => rfl

/-! ## Rules under a patch -/

/-- The rule that a patch makes of another. -/
def applied (p : RulePatch) (old : Rule) (now : Moment) : Rule :=
  { old with
    name := p.name.getD old.name
    description := p.description.getD old.description
    trigger := p.trigger.getD old.trigger
    conditions := p.conditions.getD old.conditions
    actions := p.actions.getD old.actions
    isActive := p.isActive.getD old.isActive
    updatedAt := now }

/-- The changes of a patch, merged into the object of a rule, make the object of the rule under the
patch. -/
theorem merge_changes (p : RulePatch) (old : Rule) :
    Fields.merge old.fields p.changes = (p.applied old old.updatedAt).fields := by
  obtain ⟨name, description, trigger, conditions, actions, isActive⟩ := p
  cases name <;> cases description <;> cases trigger <;> cases conditions <;> cases actions <;>
    cases isActive <;> rfl

/-- A patch that is applied again changes nothing but the time. -/
theorem applied_applied (p : RulePatch) (old : Rule) (now later : Moment) :
    p.applied (p.applied old now) later = p.applied old later := by
  obtain ⟨name, description, trigger, conditions, actions, isActive⟩ := p
  simp only [applied]
  cases name <;> cases description <;> cases trigger <;> cases conditions <;> cases actions <;>
    cases isActive <;> rfl

/-- The numbers of the patch are finite. -/
structure AllFinite (p : RulePatch) : Prop where
  conditions : ∀ c ∈ p.conditions, Value.allFiniteFields c = true
  parameters : ∀ as ∈ p.actions, ∀ a ∈ as, Value.allFiniteFields a.parameters = true

/-- The patch with null for numbers that are not finite. -/
def storable (p : RulePatch) : RulePatch :=
  { p with
    conditions := p.conditions.map Value.storableFields
    actions := p.actions.map (·.map Action.reread) }

theorem AllFinite.storable_eq (h : p.AllFinite) : p.storable = p := by
  have hconditions : p.conditions.map Value.storableFields = p.conditions := by
    conv_rhs => rw [← Option.map_id' (x := p.conditions)]
    exact Option.map_congr fun c hc => Value.storableFields_of_allFinite c (h.conditions c hc)
  have hactions : p.actions.map (·.map Action.reread) = p.actions := by
    conv_rhs => rw [← Option.map_id' (x := p.actions)]
    refine Option.map_congr fun as has => ?_
    conv_rhs => rw [← List.map_id' as]
    exact List.map_congr_left fun a ha => Action.reread_eq (h.parameters as has a ha)
  unfold storable
  rw [hconditions, hactions]

theorem value_reread (a : Action) : a.reread.value = a.value := by
  unfold Action.value Action.fields Action.reread
  rw [Value.storableFields_storableFields]

/-- A patch and the patch as it is stored make rules with the same object. -/
theorem fields_applied_storable (p : RulePatch) (old : Rule) (now : Moment) :
    (p.storable.applied old now).fields = (p.applied old now).fields := by
  have hconditions : Value.storableFields ((p.conditions.map Value.storableFields).getD old.conditions) =
      Value.storableFields (p.conditions.getD old.conditions) := by
    cases p.conditions with
    | none => rfl
    | some c => exact Value.storableFields_storableFields c
  have hactions : ((p.actions.map (·.map Action.reread)).getD old.actions).map Action.value =
      (p.actions.getD old.actions).map Action.value := by
    cases p.actions with
    | none => rfl
    | some as =>
      rw [Option.map_some, Option.getD_some, Option.getD_some, List.map_map]
      exact List.map_congr_left fun a _ => value_reread a
  unfold Rule.fields applied storable
  dsimp only
  rw [hconditions, hactions]

/-- A review does not look at when a rule was changed. -/
theorem review_applied (p : RulePatch) (old : Rule) (reference now later : Moment) :
    Review.rule reference (p.applied old later).fields =
      Review.rule reference (p.applied old now).fields := by
  have hname (q : Rule) : Fields.get? q.fields "name" = some (.str q.name) := rfl
  have htrigger (q : Rule) : Fields.get? q.fields "trigger" = some (.str q.trigger.name) := rfl
  have hconditions (q : Rule) : Fields.get? q.fields "conditions" =
      some (.obj (Value.storableFields q.conditions)) := rfl
  have hactions (q : Rule) : Fields.get? q.fields "actions" =
      some (.list (q.actions.map Action.value)) := rfl
  unfold Review.rule
  simp only [hname, htrigger, hconditions, hactions, applied]

variable {old : Rule} {now reference : Moment}

/-- What is written of a rule under a patch is all of it. -/
theorem storable_applied (h : old.Storable) (hnow : now.Stamped) :
    (p.storable.applied old now).Storable where
  conditions := by
    show Value.allFiniteFields ((p.conditions.map Value.storableFields).getD old.conditions) = true
    cases p.conditions with
    | none => exact h.conditions
    | some c => exact Value.allFiniteFields_storableFields c
  parameters := by
    show ∀ a ∈ (p.actions.map (·.map Action.reread)).getD old.actions, _
    cases p.actions with
    | none => exact h.parameters
    | some as =>
      intro a ha
      obtain ⟨b, -, rfl⟩ := List.mem_map.mp ha
      exact Value.allFiniteFields_storableFields b.parameters
  createdAt := h.createdAt
  updatedAt := hnow

/-- A rule under a patch, read back from its object, is what the stored rule is redefined as. -/
theorem redefined_reread (h : old.Storable) :
    Rules.redefined old (p.applied old old.updatedAt).reread now = p.storable.applied old now := by
  have hconditions : Value.storableFields (p.conditions.getD old.conditions) =
      (p.conditions.map Value.storableFields).getD old.conditions := by
    cases p.conditions with
    | none => exact Value.storableFields_of_allFinite _ h.conditions
    | some c => rfl
  have hactions : (p.actions.getD old.actions).map Action.reread =
      (p.actions.map (·.map Action.reread)).getD old.actions := by
    cases p.actions with
    | none =>
      conv_rhs => rw [Option.map_none, Option.getD_none, ← List.map_id' old.actions]
      exact List.map_congr_left fun a ha => Action.reread_eq (h.parameters a ha)
    | some as => rfl
  unfold Rules.redefined Rule.reread applied storable
  dsimp only
  rw [hconditions, hactions]

/-- A rule without errors that a patch makes of a well-formed one is well formed. -/
theorem wellFormed_applied (h : old.WellFormed)
    (hvalid : (Review.rule reference (p.applied old old.updatedAt).fields).isValid = true) :
    (p.applied old old.updatedAt).WellFormed := by
  obtain ⟨hne, hclean⟩ := Review.clean_of_isValid hvalid
  refine ⟨hne, fun a ha hempty => ?_, h.count, h.lastExecuted, h.createdAt, h.updatedAt⟩
  obtain ⟨type, parameters, hparts, -⟩ := hclean a ha
  obtain ⟨hknown, -⟩ := Review.actionParts_value_eq hparts
  rw [hempty] at hknown
  cases hknown

end RulePatch

end TaskAutomation.Api
