import TaskAutomation.Api.Request
import TaskAutomation.Proofs.Engine.Review

/-!
# Drafts and their reviews

* `Review.Clean reference v` : a review says nothing of an action; `Review.isValid_iff` : a definition
  is valid just when its four parts are, each on its own; `Review.fields_of_actionParts` : where a review finds
  the type and the parameters of an action;
* `Action.actionParts_value` : a review reads of an action what it reads of the value that the action
  was read from, with null for numbers that are not finite;
* `Api.Described B` : the texts and the flag of a body are as they are to be; `Api.Shaped B` : its
  conditions and the parameters of its actions are objects, where there are any;
* `Api.draft_iff` : a described body passes as a draft that its review finds no errors in just when it
  is shaped and a review of the body, with null for numbers that are not finite, finds none.
-/

namespace TaskAutomation

open Check

/-! ## Stored fields -/

namespace Value

theorem storable_float (x : Float) : storable (.float x) = .float x ∨ storable (.float x) = .null := by
  rw [storable]
  split
  · exact .inl rfl
  · exact .inr rfl

theorem eq_str_of_storable {v : Value} {s : String} (h : v.storable = .str s) : v = .str s := by
  cases v with
  | str t => rwa [storable_str] at h
  | float x => rcases storable_float x with hx | hx <;> rw [hx] at h <;> cases h
  | _ => simp [storable] at h

theorem eq_list_of_storable {v : Value} {items : List Value} (h : v.storable = .list items) :
    ∃ vs, v = .list vs ∧ items = storableList vs := by
  cases v with
  | list vs =>
    rw [storable] at h
    cases h
    exact ⟨vs, rfl, rfl⟩
  | float x => rcases storable_float x with hx | hx <;> rw [hx] at h <;> cases h
  | _ => simp [storable] at h

theorem eq_obj_of_storable {v : Value} {fields : Fields} (h : v.storable = .obj fields) :
    ∃ given, v = .obj given ∧ fields = storableFields given := by
  cases v with
  | obj given =>
    rw [storable] at h
    cases h
    exact ⟨given, rfl, rfl⟩
  | float x => rcases storable_float x with hx | hx <;> rw [hx] at h <;> cases h
  | _ => simp [storable] at h

end Value

/-! ## Fields that pass -/

namespace Check

variable {α : Type} {check : Checker α} {s : Setting}

theorem optional_of_none {f : Fields} {name : String} {absent : α} (h : f.get? name = none) :
    Check.optional s f name absent check = .ok absent := by
  unfold Check.optional
  rw [h]

theorem textWithin_ok {least most : Nat} {t : String} (hleast : least ≤ t.length)
    (hmost : t.length ≤ most) : textWithin least (some most) s (.str t) = .ok t := by
  show (if t.length < least then _ else if most < t.length then _ else _) = _
  rw [if_neg (by omega), if_neg (by omega)]

theorem itemsFrom_eq_ok_iff {n : Nat} {vs : List Value} {as : List α} :
    itemsFrom check s n vs = .ok as ↔ vs.map (check s) = as.map .ok := by
  induction vs generalizing n as with
  | nil =>
    constructor
    · rintro ⟨⟩
      rfl
    · intro h
      rw [List.map_eq_nil_iff.mp h.symm]
      rfl
  | cons v rest ih =>
    rw [itemsFrom, List.map_cons]
    constructor
    · intro h
      cases hv : check s v with
      | issues found =>
        rw [hv] at h
        cases hrest : itemsFrom check s (n + 1) rest <;> rw [hrest] at h <;> cases h
      | ok a =>
        cases hrest : itemsFrom check s (n + 1) rest with
        | issues found =>
          rw [hv, hrest] at h
          cases h
        | ok as =>
          rw [hv, hrest] at h
          cases h
          rw [ih.mp hrest]
          rfl
    · intro h
      cases as with
      | nil => cases h
      | cons a as =>
        obtain ⟨hv, hrest⟩ := List.cons.inj h
        rw [hv, ih.mpr hrest]
        rfl

theorem exists_items {vs : List Value} (h : ∀ v ∈ vs, ∃ a, check s v = .ok a) :
    ∃ as : List α, vs.map (check s) = as.map .ok := by
  induction vs with
  | nil => exact ⟨[], rfl⟩
  | cons v rest ih =>
    obtain ⟨⟨a, ha⟩, hrest⟩ := List.forall_mem_cons.mp h
    obtain ⟨as, has⟩ := ih hrest
    exact ⟨a :: as, by rw [List.map_cons, ha, has, List.map_cons]⟩

end Check

/-! ## Reviews without errors -/

theorem Trigger.name_of_ofName? {s : String} {t : Trigger} (h : Trigger.ofName? s = some t) :
    t.name = s := by
  have hname : (t.name == s) = true := List.find?_some (p := fun u : Trigger => u.name == s) h
  exact eq_of_beq hname

namespace Review

variable {reference : Moment} {v : Value}

theorem isValid_iff {f : Fields} : (rule reference f).isValid = true ↔
    nameErrors (f.get? "name") = [] ∧ triggerErrors (f.get? "trigger") = []
      ∧ conditionsErrors (f.get? "conditions") = []
      ∧ actionsErrors reference (f.get? "actions") = [] := by
  show (List.isEmpty (_ ++ _ ++ _ ++ _)) = true ↔ _
  rw [List.isEmpty_iff, List.append_eq_nil_iff, List.append_eq_nil_iff, List.append_eq_nil_iff,
    and_assoc, and_assoc]

theorem trigger?_eq_iff {v? : Option Value} {t : Trigger} :
    trigger? v? = some t ↔ v? = some (.str t.name) := by
  constructor
  · intro h
    unfold trigger? at h
    split at h
    · rw [Trigger.name_of_ofName? h]
    · cases h
  · rintro rfl
    cases t <;> rfl

theorem triggerErrors_eq_nil {v? : Option Value} :
    triggerErrors v? = [] ↔ ∃ t : Trigger, v? = some (.str t.name) := by
  constructor
  · intro h
    unfold triggerErrors at h
    split at h
    · cases h
    · cases h
    · cases h
    · next v _ _ =>
      split at h
      · next hsome =>
        obtain ⟨t, ht⟩ := Option.isSome_iff_exists.mp hsome
        exact ⟨t, trigger?_eq_iff.mp ht⟩
      · cases h
  · rintro ⟨t, rfl⟩
    cases t <;> rfl

/-- The object that a field holds; without one there are no fields. -/
def objectOr : Option Value → Fields
  | some (.obj fields) => fields
  | _ => []

/-- What a review reads of an action stands in its fields. -/
theorem fields_of_actionParts {type : ActionType} {parameters : Fields}
    (h : actionParts v = .ok (type, parameters)) : ∃ fields : Fields, v = .obj fields ∧
      fields.get? "type" = some (.str type.name) ∧ parameters = objectOr (fields.get? "parameters") := by
  unfold actionParts at h
  split at h
  · next fields =>
    refine ⟨fields, rfl, ?_⟩
    split at h
    · cases h
    · next w hfilter =>
      obtain ⟨hw, -⟩ := Option.filter_eq_some_iff.mp hfilter
      dsimp only at h
      split at h
      · cases h
      · next t hknown =>
        have htype : w = .str t.name := by
          split at hknown
          · rw [ActionType.name_of_ofName? hknown]
          · cases hknown
        rw [htype] at hw
        split at h
        · next hnone =>
          cases h
          refine ⟨hw, ?_⟩
          cases hp : Fields.get? fields "parameters" with
          | none => rfl
          | some p =>
            have hfalsy := Option.filter_eq_none_iff.mp hnone p hp
            cases p with
            | obj q =>
              cases q with
              | nil => rfl
              | cons _ _ => exact absurd rfl hfalsy
            | _ => rfl
        · next q hq =>
          cases h
          rw [(Option.filter_eq_some_iff.mp hq).1]
          exact ⟨hw, rfl⟩
        · cases h
  · cases h

/-- A review says nothing of an action. -/
def Clean (reference : Moment) (v : Value) : Prop :=
  ∃ type parameters, actionParts v = .ok (type, parameters)
    ∧ parameterErrors reference type parameters = []

theorem actionErrors_eq_nil {n : Nat} {v : Value} :
    actionErrors reference n v = [] ↔ Clean reference v := by
  unfold actionErrors Clean
  dsimp only
  constructor
  · intro h
    split at h
    · cases h
    · next type parameters hparts => exact ⟨type, parameters, hparts, List.map_eq_nil_iff.mp h⟩
  · rintro ⟨type, parameters, hparts, hnone⟩
    rw [hparts]
    dsimp only
    rw [hnone]
    rfl

theorem actionsErrorsFrom_eq_nil {n : Nat} {vs : List Value} :
    actionsErrorsFrom reference n vs = [] ↔ ∀ v ∈ vs, Clean reference v := by
  induction vs generalizing n with
  | nil => exact iff_of_true rfl nofun
  | cons v rest ih =>
    rw [actionsErrorsFrom, List.append_eq_nil_iff, actionErrors_eq_nil, ih, List.forall_mem_cons]

theorem actionsErrors_eq_nil {v? : Option Value} : actionsErrors reference v? = [] ↔
    ∃ vs, v? = some (.list vs) ∧ vs ≠ [] ∧ ∀ v ∈ vs, Clean reference v := by
  unfold actionsErrors
  constructor
  · intro h
    split at h
    · cases h
    · next vs hfilter =>
      obtain ⟨hsome, htruthy⟩ := Option.filter_eq_some_iff.mp hfilter
      refine ⟨vs, hsome, ?_, actionsErrorsFrom_eq_nil.mp h⟩
      rintro rfl
      cases htruthy
    · cases h
  · rintro ⟨vs, rfl, hne, hclean⟩
    have htruthy : Value.truthy (.list vs) = true := by
      cases vs with
      | nil => exact absurd rfl hne
      | cons v rest => rfl
    rw [Option.filter_some_pos htruthy]
    exact actionsErrorsFrom_eq_nil.mpr hclean

end Review

/-! ## Actions -/

/-- The parameters of an action, where there are any, are an object. -/
def Value.HasParts (v : Value) : Prop :=
  ∀ fields p, v = .obj fields → Fields.get? fields "parameters" = some p → ∃ given, p = .obj given

theorem Trigger.eq_of_check {s : Setting} {v : Value} {t : Trigger} (h : Trigger.check s v = .ok t) :
    v = .str t.name := eq_of_choice h

namespace Action

variable {s : Setting} {v : Value} {a : Action}

theorem hasParts_of_check (h : Action.check s v = .ok a) : v.HasParts := by
  obtain ⟨fields, rfl, -, hparameters⟩ := parts_of_check h
  rintro _ p ⟨⟩ hp
  rcases hparameters with hgiven | ⟨hnone, -⟩
  · exact ⟨_, Option.some.inj (hp.symm.trans hgiven)⟩
  · cases hp.symm.trans hnone

/-- A review takes an action for what it takes its value for, but for numbers that are not finite. -/
theorem actionParts_value (h : Action.check s v = .ok a) :
    Review.actionParts a.value = Review.actionParts v.storable := by
  obtain ⟨fields, rfl, htype, hparameters⟩ := parts_of_check h
  have htype' : Fields.get? (Value.storableFields fields) "type" = some (.str a.type) := by
    rw [Value.get?_storableFields, htype, Option.map_some, Value.storable_str]
  have hparameters' : (Fields.get? (Value.storableFields fields) "parameters").filter Value.truthy =
      (some (Value.obj (Value.storableFields a.parameters))).filter Value.truthy := by
    rw [Value.get?_storableFields]
    rcases hparameters with hgiven | ⟨hnone, hnil⟩
    · rw [hgiven, Option.map_some, Value.storable]
    · rw [hnone, hnil]
      rfl
  rw [Value.storable]
  unfold Review.actionParts
  have hvalue : a.value = .obj a.fields := rfl
  have hgiven : Fields.get? a.fields "type" = some (.str a.type) := rfl
  have hobject : Fields.get? a.fields "parameters" = some (.obj (Value.storableFields a.parameters)) :=
    rfl
  simp only [hvalue, hgiven, hobject, htype', hparameters']

theorem clean_value {reference : Moment} (h : Action.check s v = .ok a) :
    Review.Clean reference a.value ↔ Review.Clean reference v.storable := by
  unfold Review.Clean
  rw [actionParts_value h]

/-- What a review says nothing of passes as an action, if its parameters are an object. -/
theorem check_of_clean {reference : Moment} (hclean : Review.Clean reference v.storable)
    (hparts : v.HasParts) (s : Setting) : ∃ a, Action.check s v = .ok a := by
  obtain ⟨type, parameters, hactionParts, -⟩ := hclean
  obtain ⟨fields, hobj, htype, -⟩ := Review.fields_of_actionParts hactionParts
  obtain ⟨given, rfl, rfl⟩ := Value.eq_obj_of_storable hobj
  rw [Value.get?_storableFields, Option.map_eq_some_iff] at htype
  obtain ⟨u, hu, hstorable⟩ := htype
  rw [Value.eq_str_of_storable hstorable] at hu
  have hne : type.name ≠ "" := by cases type <;> decide
  have hword : required s given "type" (textWithin 1 none) = .ok type.name :=
    required_of_get? hu (textWithin_one type.name hne)
  have hparameters : ∃ p, optional s given "parameters" [] object = .ok p := by
    cases hget : Fields.get? given "parameters" with
    | none => exact ⟨[], optional_of_none hget⟩
    | some p =>
      obtain ⟨q, rfl⟩ := hparts given p rfl hget
      exact ⟨q, optional_of_get? hget rfl⟩
  obtain ⟨p, hp⟩ := hparameters
  refine ⟨⟨type.name, p⟩, ?_⟩
  show ofFields s given = _
  unfold ofFields
  rw [hword, hp]
  rfl

end Action

/-! ## Drafts -/

namespace Api

/-- The texts and the flag of a body are as they are to be. -/
structure Described (B : Fields) : Prop where
  user : ∃ t, B.get? "user_id" = some (.str t) ∧ t ≠ ""
  name : ∃ t, B.get? "name" = some (.str t) ∧ 1 ≤ t.length ∧ t.length ≤ 100
  description : B.get? "description" = none ∨
    ∃ t, B.get? "description" = some (.str t) ∧ t.length ≤ 500
  active : B.get? "is_active" = none ∨ ∃ b, B.get? "is_active" = some (.bool b)

/-- The conditions of a body and the parameters of its actions, where there are any, are objects. -/
structure Shaped (B : Fields) : Prop where
  conditions : ∀ v, B.get? "conditions" = some v → ∃ c, v = .obj c
  parameters : ∀ vs, B.get? "actions" = some (.list vs) → ∀ v ∈ vs, v.HasParts

namespace RuleDraft

variable {s : Setting} {B : Fields} {d : RuleDraft} {reference : Moment}

theorem check_eq_ok (h : RuleDraft.check s (.obj B) = .ok d) :
    required s B "name" (textWithin 1 (some 100)) = .ok d.name
      ∧ required s B "trigger" Trigger.check = .ok d.trigger
      ∧ optional s B "conditions" [] object = .ok d.conditions
      ∧ optional s B "actions" [] (items Action.check) = .ok d.actions := by
  replace h : ofFields s B = .ok d := h
  obtain ⟨_, isActive, h₁, -, rfl⟩ := Checked.seq_eq_ok.mp h
  obtain ⟨_, actions, h₂, hactions, rfl⟩ := Checked.seq_eq_ok.mp h₁
  obtain ⟨_, conditions, h₃, hconditions, rfl⟩ := Checked.seq_eq_ok.mp h₂
  obtain ⟨_, trigger, h₄, htrigger, rfl⟩ := Checked.seq_eq_ok.mp h₃
  obtain ⟨_, description, h₅, -, rfl⟩ := Checked.seq_eq_ok.mp h₄
  obtain ⟨_, name, h₆, hname, rfl⟩ := Checked.seq_eq_ok.mp h₅
  obtain ⟨user, -, rfl⟩ := Checked.map_eq_ok.mp h₆
  exact ⟨hname, htrigger, hconditions, hactions⟩

/-- A described body passes when its trigger, conditions and actions do. -/
theorem check_of_parts (hB : Described B) {t : Trigger} {conditions : Fields} {actions : List Action}
    (htrigger : required s B "trigger" Trigger.check = .ok t)
    (hconditions : optional s B "conditions" [] object = .ok conditions)
    (hactions : optional s B "actions" [] (items Action.check) = .ok actions) :
    ∃ d, RuleDraft.check s (.obj B) = .ok d := by
  obtain ⟨user, huser, hne⟩ := hB.user
  obtain ⟨name, hname, hleast, hmost⟩ := hB.name
  have huser := required_of_get? (s := s) huser (textWithin_one user hne)
  have hname := required_of_get? (s := s) hname (textWithin_ok hleast hmost)
  have hdescription : ∃ t, optional s B "description" "" (textWithin 0 (some 500)) = .ok t := by
    rcases hB.description with hnone | ⟨t, ht, hlength⟩
    · exact ⟨"", optional_of_none hnone⟩
    · exact ⟨t, optional_of_get? ht (textWithin_ok (Nat.zero_le _) hlength)⟩
  have hactive : ∃ b, optional s B "is_active" true boolean = .ok b := by
    rcases hB.active with hnone | ⟨b, hb⟩
    · exact ⟨true, optional_of_none hnone⟩
    · exact ⟨b, optional_of_get? hb rfl⟩
  obtain ⟨description, hdescription⟩ := hdescription
  obtain ⟨active, hactive⟩ := hactive
  refine ⟨⟨user, name, description, t, conditions, actions, active⟩, ?_⟩
  show ofFields s B = _
  unfold ofFields
  rw [huser, hname, hdescription, htrigger, hconditions, hactions, hactive]
  rfl

end RuleDraft

section
variable {s : Setting} {B : Fields} {reference : Moment}

theorem get?_name {d : RuleDraft} (hname : required s B "name" (textWithin 1 (some 100)) = .ok d.name) :
    Fields.get? (Value.storableFields B) "name" = some (.str d.name) := by
  obtain ⟨v, hv, htext⟩ := get?_of_required hname
  rw [Value.get?_storableFields, hv, eq_of_textWithin htext, Option.map_some, Value.storable_str]

theorem trigger_iff : (∃ t, required s B "trigger" Trigger.check = .ok t) ↔
    Review.triggerErrors (Fields.get? (Value.storableFields B) "trigger") = [] := by
  rw [Review.triggerErrors_eq_nil, Value.get?_storableFields]
  constructor
  · rintro ⟨t, ht⟩
    obtain ⟨v, hv, hcheck⟩ := get?_of_required ht
    refine ⟨t, ?_⟩
    rw [hv, Trigger.eq_of_check hcheck, Option.map_some, Value.storable_str]
  · rintro ⟨t, ht⟩
    obtain ⟨v, hv, hstorable⟩ := Option.map_eq_some_iff.mp ht
    rw [Value.eq_str_of_storable hstorable] at hv
    exact ⟨t, required_of_get? hv (Rule.trigger_check s t)⟩

theorem conditions_iff :
    (∃ c, Check.optional s B "conditions" [] object = .ok c ∧
      Review.conditionsErrors (some (.obj (Value.storableFields c))) = []) ↔
    Review.conditionsErrors (Fields.get? (Value.storableFields B) "conditions") = [] ∧
      ∀ v, B.get? "conditions" = some v → ∃ c, v = .obj c := by
  rw [Value.get?_storableFields]
  constructor
  · rintro ⟨c, hc, herrors⟩
    rcases get?_of_optional hc with ⟨v, hv, hobject⟩ | ⟨hnone, rfl⟩
    · obtain rfl := object_eq_ok hobject
      rw [hv, Option.map_some, Value.storable]
      exact ⟨herrors, fun v hv => ⟨c, (Option.some.inj hv).symm⟩⟩
    · rw [hnone]
      exact ⟨rfl, nofun⟩
  · rintro ⟨herrors, hobject⟩
    cases hget : Fields.get? B "conditions" with
    | none => exact ⟨[], optional_of_none hget, rfl⟩
    | some v =>
      obtain ⟨c, rfl⟩ := hobject v hget
      rw [hget, Option.map_some, Value.storable] at herrors
      exact ⟨c, optional_of_get? hget rfl, herrors⟩

theorem actions_iff :
    (∃ as, Check.optional s B "actions" [] (items Action.check) = .ok as ∧
      Review.actionsErrors reference (some (.list (as.map Action.value))) = []) ↔
    Review.actionsErrors reference (Fields.get? (Value.storableFields B) "actions") = [] ∧
      ∀ vs, B.get? "actions" = some (.list vs) → ∀ v ∈ vs, v.HasParts := by
  simp only [Value.get?_storableFields, Review.actionsErrors_eq_nil]
  constructor
  · rintro ⟨as, has, _, ⟨⟩, hne, hclean⟩
    rcases get?_of_optional has with ⟨v, hv, hitems⟩ | ⟨hnone, rfl⟩
    · unfold items at hitems
      split at hitems
      · next vs =>
        have hall := itemsFrom_eq_ok_iff.mp hitems
        have hcheck (w : Value) (hw : w ∈ vs) : ∃ a ∈ as, Action.check s w = .ok a := by
          obtain ⟨a, ha, heq⟩ := List.mem_map.mp (hall ▸ List.mem_map_of_mem hw)
          exact ⟨a, ha, heq.symm⟩
        refine ⟨⟨Value.storableList vs, ?_, ?_, ?_⟩, ?_⟩
        · rw [hv, Option.map_some, Value.storable]
        · rintro hnil
          rw [Value.storableList_eq_map, List.map_eq_nil_iff] at hnil
          subst hnil
          rw [List.map_eq_nil_iff.mp hall.symm] at hne
          exact hne rfl
        · rw [Value.storableList_eq_map, List.forall_mem_map]
          intro w hw
          obtain ⟨a, ha, hw⟩ := hcheck w hw
          exact (Action.clean_value hw).mp (hclean _ (List.mem_map_of_mem ha))
        · intro us hus w hw
          cases hv.symm.trans hus
          obtain ⟨a, -, hw⟩ := hcheck w hw
          exact Action.hasParts_of_check hw
      · cases hitems
    · exact absurd rfl hne
  · rintro ⟨⟨ws, hws, hne, hclean⟩, hparts⟩
    obtain ⟨v, hv, hstorable⟩ := Option.map_eq_some_iff.mp hws
    obtain ⟨vs, rfl, rfl⟩ := Value.eq_list_of_storable hstorable
    rw [Value.storableList_eq_map, List.forall_mem_map] at hclean
    have hall : ∀ w ∈ vs, ∃ a, Action.check s w = .ok a := fun w hw =>
      Action.check_of_clean (hclean w hw) (hparts vs hv w hw) s
    obtain ⟨as, has⟩ := exists_items hall
    refine ⟨as, optional_of_get? hv (itemsFrom_eq_ok_iff.mpr has), as.map Action.value, rfl, ?_, ?_⟩
    · rintro hnil
      rw [List.map_eq_nil_iff.mp hnil, List.map_nil, List.map_eq_nil_iff] at has
      rw [has] at hne
      exact hne rfl
    · rw [List.forall_mem_map]
      intro a ha
      obtain ⟨w, hw, hcheck⟩ := List.mem_map.mp (has ▸ List.mem_map_of_mem (f := Checked.ok) ha)
      exact (Action.clean_value hcheck).mpr (hclean w hw)

end

/-- A described body passes as a draft without errors just when it is shaped, and a review of it, with
null for numbers that are not finite, finds no errors. -/
theorem draft_iff {s : Setting} {B : Fields} (hB : Described B) (reference : Moment) :
    (∃ d, RuleDraft.check s (.obj B) = .ok d ∧ (Review.rule reference d.fields).isValid = true) ↔
      (Review.rule reference (Value.storableFields B)).isValid = true ∧ Shaped B := by
  simp only [Review.isValid_iff]
  constructor
  · rintro ⟨d, hd, hname, -, hconditions, hactions⟩
    obtain ⟨hdraftName, htrigger, hdraftConditions, hdraftActions⟩ := RuleDraft.check_eq_ok hd
    obtain ⟨hclean, hobject⟩ := conditions_iff.mp ⟨_, hdraftConditions, hconditions⟩
    obtain ⟨hfine, hparts⟩ := actions_iff.mp ⟨_, hdraftActions, hactions⟩
    rw [get?_name hdraftName]
    exact ⟨⟨hname, trigger_iff.mp ⟨_, htrigger⟩, hclean, hfine⟩, hobject, hparts⟩
  · rintro ⟨⟨hname, htrigger, hconditions, hactions⟩, hobject, hparts⟩
    obtain ⟨t, ht⟩ := (trigger_iff (s := s)).mpr htrigger
    obtain ⟨c, hc, hclean⟩ := (conditions_iff (s := s)).mpr ⟨hconditions, hobject⟩
    obtain ⟨as, has, hfine⟩ := (actions_iff (s := s)).mpr ⟨hactions, hparts⟩
    obtain ⟨d, hd⟩ := RuleDraft.check_of_parts hB ht hc has
    obtain ⟨hdraftName, htrigger', hconditions', hactions'⟩ := RuleDraft.check_eq_ok hd
    rw [get?_name hdraftName] at hname
    cases hc.symm.trans hconditions'
    cases has.symm.trans hactions'
    exact ⟨d, hd, hname, Review.triggerErrors_eq_nil.mpr ⟨d.trigger, rfl⟩, hclean, hfine⟩

end Api

end TaskAutomation
