import TaskAutomation.Proofs.Api.Draft

/-!
# Reviews at another time

What a review finds depends on its moment only through directives, the dates that count from it.

* `Review.Stands later type f` : the directives among the dates that a review looks at stand for moments;
* `Review.parameterErrors_later` : parameters that nothing is said of are clean at another time just when
  their directives stand for moments then;
* `Review.isValid_later` : so is a rule without errors, with those of all its actions.
-/

namespace TaskAutomation

open Check

/-- The text is a directive, blanks around it aside. -/
def DueDate.IsDirective (s : String) : Prop :=
  (Directive.read? (Text.trimList Text.isBlank s.toList)).isSome

/-- A date that is no directive does not count from the reference. -/
theorem DueDate.resolve_later {s : String} (h : ¬ IsDirective s) (now later : Moment) :
    resolve later (.str s) = resolve now (.str s) := by
  have hnone : Directive.read? (Text.trimList Text.isBlank s.toList) = none :=
    Option.not_isSome_iff_eq_none.mp h
  unfold resolve ofText
  dsimp only
  rw [hnone]

namespace Review

variable {now later : Moment} {type : ActionType} {f : Fields} {v : Value}

/-- The directives among the dates that a review looks at stand for moments. -/
def Stands (later : Moment) (type : ActionType) (f : Fields) : Prop :=
  ∀ name ∈ dateParameters type, ∀ s, f.get? name = some (.str s) → DueDate.IsDirective s →
    isBadDate later (.str s) = false

theorem isBadDate_later (hgood : isBadDate now v = false)
    (h : ∀ s, v = .str s → DueDate.IsDirective s → isBadDate later (.str s) = false) :
    isBadDate later v = false := by
  cases v with
  | null => rfl
  | str s =>
    by_cases hs : DueDate.IsDirective s
    · exact h s rfl hs
    · unfold isBadDate at hgood ⊢
      rwa [DueDate.resolve_later hs now later]
  | _ => cases hgood

theorem dateErrors_eq_nil : dateErrors now type f = [] ↔
    ∀ name ∈ dateParameters type, ∀ v, f.get? name = some v → isBadDate now v = false := by
  unfold dateErrors
  rw [List.filterMap_eq_nil_iff]
  refine forall₂_congr fun name _ => ?_
  cases hget : Fields.get? f name with
  | none => exact iff_of_true rfl nofun
  | some v => cases hbad : isBadDate now v <;> simp [hbad]

/-- Parameters that nothing is said of are so at another time just when their directives stand. -/
theorem parameterErrors_later (h : parameterErrors now type f = []) :
    parameterErrors later type f = [] ↔ Stands later type f := by
  unfold parameterErrors at h ⊢
  rw [Parameters.readFor_eq type later now]
  cases hread : Parameters.readFor type { now } f with
  | issues found =>
    rw [hread] at h
    have hnil : found = [] := List.map_eq_nil_iff.mp h
    exact absurd (hnil ▸ hread) (Parameters.explained_readFor type _ _)
  | ok p =>
    rw [hread] at h
    have hgood := dateErrors_eq_nil.mp h
    rw [dateErrors_eq_nil]
    constructor
    · intro hlater name hname s hs _
      exact hlater name hname _ hs
    · intro hstands name hname v hv
      refine isBadDate_later (hgood name hname v hv) ?_
      rintro s rfl
      exact hstands name hname s hv

theorem stands_storableFields : Stands later type (Value.storableFields f) ↔ Stands later type f := by
  have htext : ∀ name s, Fields.get? (Value.storableFields f) name = some (.str s) ↔
      f.get? name = some (.str s) := by
    intro name s
    rw [Value.get?_storableFields, Option.map_eq_some_iff]
    constructor
    · rintro ⟨v, hv, hs⟩
      rwa [← Value.eq_str_of_storable hs]
    · intro hs
      exact ⟨_, hs, Value.storable_str s⟩
  unfold Stands
  simp only [htext]

end Review

/-- The directives among the dates of the action that a review looks at stand for moments. -/
def Action.Stands (later : Moment) (a : Action) : Prop :=
  ∀ type, ActionType.ofName? a.type = some type → Review.Stands later type a.parameters

namespace Review

variable {now later : Moment}

/-- What a review takes the value of an action for. -/
theorem actionParts_value_eq {a : Action} {type : ActionType} {parameters : Fields}
    (h : actionParts a.value = .ok (type, parameters)) :
    ActionType.ofName? a.type = some type ∧ parameters = Value.storableFields a.parameters := by
  have htype : Fields.get? a.fields "type" = some (.str a.type) := rfl
  have hparameters : Fields.get? a.fields "parameters" = some (.obj a.reread.parameters) := rfl
  cases hknown : ActionType.ofName? a.type with
  | none =>
    obtain ⟨e, he⟩ := actionParts_of_unknown htype hknown
    cases h.symm.trans he
  | some t =>
    have hparts : actionParts a.value = .ok (t, a.reread.parameters) :=
      actionParts_of_known htype (.inl hparameters) hknown
    cases h.symm.trans hparts
    exact ⟨rfl, rfl⟩

theorem clean_later {a : Action} (h : Clean now a.value) : Clean later a.value ↔ a.Stands later := by
  obtain ⟨type, parameters, hparts, herrors⟩ := h
  obtain ⟨hknown, rfl⟩ := actionParts_value_eq hparts
  constructor
  · rintro ⟨_, _, hparts', herrors'⟩ type' hknown'
    cases hparts.symm.trans hparts'
    cases hknown.symm.trans hknown'
    exact stands_storableFields.mp ((parameterErrors_later herrors).mp herrors')
  · intro hstands
    refine ⟨type, _, hparts, (parameterErrors_later herrors).mpr ?_⟩
    exact stands_storableFields.mpr (hstands type hknown)

/-- The actions of a rule without errors are clean, and there are some. -/
theorem clean_of_isValid {r : Rule} (h : (rule now r.fields).isValid = true) :
    r.actions ≠ [] ∧ ∀ a ∈ r.actions, Clean now a.value := by
  obtain ⟨-, -, -, hactions⟩ := isValid_iff.mp h
  obtain ⟨_, ⟨⟩, hne, hclean⟩ := actionsErrors_eq_nil.mp hactions
  refine ⟨fun hnil => hne (List.map_eq_nil_iff.mpr hnil), fun a ha => ?_⟩
  exact hclean _ (List.mem_map_of_mem ha)

/-- A rule without errors has none at another time just when the directives of its actions stand. -/
theorem isValid_later {r : Rule} (h : (rule now r.fields).isValid = true) :
    (rule later r.fields).isValid = true ↔ ∀ a ∈ r.actions, a.Stands later := by
  obtain ⟨hne, hclean⟩ := clean_of_isValid h
  constructor
  · intro hlater a ha
    exact (clean_later (hclean a ha)).mp ((clean_of_isValid hlater).2 a ha)
  · intro hstands
    obtain ⟨hname, htrigger, hconditions, -⟩ := isValid_iff.mp h
    refine isValid_iff.mpr ⟨hname, htrigger, hconditions, actionsErrors_eq_nil.mpr ⟨_, rfl, ?_, ?_⟩⟩
    · exact fun hnil => hne (List.map_eq_nil_iff.mp hnil)
    · rw [List.forall_mem_map]
      exact fun a ha => (clean_later (hclean a ha)).mpr (hstands a ha)

end Review

end TaskAutomation
