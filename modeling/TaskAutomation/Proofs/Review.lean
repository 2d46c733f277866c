import TaskAutomation.Proofs.Api.Draft

/-!
# Reviews part by part

A review of a definition says what reviews of its parts say, each part by itself, in order.

* `Review.Part` : a name, a trigger, one condition, or one action at its position; `Part.definition` : a
  definition that has this part and nothing else that a review says anything of;
* `Review.parts f` : the parts of a definition; `Review.Replaced f g p q` : in `g` one action or condition is
  another one than in `f`;
* `Review.rule_parts` : errors and warnings of a definition from those of its parts.
-/

namespace TaskAutomation.Review

variable {reference : Moment} {f g : Fields} {v : Value}

/-! ## Actions in order -/

/-- An action that no review says anything of. -/
def quietAction : Value := .obj [("type", .str "log_activity")]

theorem clean_quietAction : Clean reference quietAction := ⟨.logActivity, [], rfl, rfl⟩

theorem actionsErrorsFrom_append {n : Nat} {as bs : List Value} :
    actionsErrorsFrom reference n (as ++ bs) =
      actionsErrorsFrom reference n as ++ actionsErrorsFrom reference (n + as.length) bs := by
  induction as generalizing n with
  | nil => rfl
  | cons v as ih =>
    rw [List.cons_append, actionsErrorsFrom, ih, actionsErrorsFrom, List.append_assoc, List.length_cons,
      show n + 1 + as.length = n + (as.length + 1) by omega]

/-- The errors of actions are those of each of them at its position. -/
theorem actionsErrorsFrom_eq (n : Nat) (vs : List Value) : actionsErrorsFrom reference (n + 1) vs =
    (vs.zipIdx n).flatMap fun p => actionErrors reference (p.2 + 1) p.1 := by
  induction vs generalizing n with
  | nil => rfl
  | cons v rest ih => rw [actionsErrorsFrom, ih, List.zipIdx_cons, List.flatMap_cons]

/-! ## Parts -/

/-- A part of a definition that a review looks at by itself; an action with the number of those before it. -/
inductive Part where
  | name (name : Option Value)
  | trigger (trigger : Option Value)
  | condition (path : String) (spec : Value)
  | action (before : Nat) (v : Value)

/-- A definition of a name and a trigger, where they are given, conditions and actions. -/
def compose (name trigger : Option Value) (conditions : Fields) (actions : List Value) : Fields :=
  (name.map fun v => ("name", v)).toList ++ (trigger.map fun v => ("trigger", v)).toList
    ++ [("conditions", .obj conditions), ("actions", .list actions)]

/-- The definition that has a part and nothing else that a review says anything of. An action keeps its
position. -/
def Part.definition : Part → Fields
  | .name given => compose given (some (.str "task_completed")) [] [quietAction]
  | .trigger given => compose none given [] [quietAction]
  | .condition path spec => compose none (some (.str "task_completed")) [(path, spec)] [quietAction]
  | .action before v => compose none (some (.str "task_completed")) []
    (List.replicate before quietAction ++ [v])

/-- The review of a part by itself. -/
def Part.review (reference : Moment) (p : Part) : Review := rule reference p.definition

/-- The parts of a definition, in order. -/
def parts (f : Fields) : List Part :=
  .name (f.get? "name") :: .trigger (f.get? "trigger") ::
    ((objectOr (f.get? "conditions")).map fun (path, spec) => .condition path spec)
      ++ (actionList (f.get? "actions")).zipIdx.map fun (v, before) => .action before v

/-- The conditions are an object, if there are any, and the actions a list of some. -/
structure Composed (f : Fields) : Prop where
  conditions : f.get? "conditions" = none ∨ f.get? "conditions" = some .null
    ∨ ∃ c, f.get? "conditions" = some (.obj c)
  actions : ∃ vs, f.get? "actions" = some (.list vs) ∧ vs ≠ []

theorem errors_of_composed (h : Composed f) : (rule reference f).errors =
    nameErrors (f.get? "name") ++ triggerErrors (f.get? "trigger")
      ++ (objectOr (f.get? "conditions")).flatMap (fun (path, spec) => conditionErrors path spec)
      ++ actionsErrorsFrom reference 1 (actionList (f.get? "actions")) := by
  have hconditions : conditionsErrors (f.get? "conditions") =
      (objectOr (f.get? "conditions")).flatMap fun (path, spec) => conditionErrors path spec := by
    rcases h.conditions with hc | hc | ⟨c, hc⟩ <;> rw [hc] <;> rfl
  have hactions : actionsErrors reference (f.get? "actions") =
      actionsErrorsFrom reference 1 (actionList (f.get? "actions")) := by
    obtain ⟨vs, hvs, hne⟩ := h.actions
    rw [hvs]
    cases vs with
    | nil => exact absurd rfl hne
    | cons v rest => rfl
  rw [rule, hconditions, hactions]

section
variable {name trigger : Option Value} {conditions : Fields} {actions : List Value}

theorem composed_compose (h : actions ≠ []) : Composed (compose name trigger conditions actions) := by
  cases name <;> cases trigger <;> exact ⟨.inr (.inr ⟨_, rfl⟩), _, rfl, h⟩

theorem errors_compose (h : actions ≠ []) :
    (rule reference (compose name trigger conditions actions)).errors =
      nameErrors name ++ triggerErrors trigger
        ++ conditions.flatMap (fun (path, spec) => conditionErrors path spec)
        ++ actionsErrorsFrom reference 1 actions := by
  rw [errors_of_composed (composed_compose h)]
  cases name <;> cases trigger <;> rfl

end

/-- What a review says of a part by itself. -/
theorem errors_review (p : Part) : (p.review reference).errors = match p with
    | .name given => nameErrors given
    | .trigger given => triggerErrors given
    | .condition path spec => conditionErrors path spec
    | .action before v => actionErrors reference (before + 1) v := by
  have hquiet : ∀ n, actionsErrorsFrom reference 1 (List.replicate n quietAction) = [] := by
    intro n
    rw [actionsErrorsFrom_eq_nil]
    intro v hv
    rw [List.eq_of_mem_replicate hv]
    exact clean_quietAction
  have hone : actionsErrorsFrom reference 1 [quietAction] = [] := hquiet 1
  have htrigger : triggerErrors (some (.str "task_completed")) = [] := rfl
  have hname : nameErrors none = [] := rfl
  unfold Part.review
  cases p with
  | action before v =>
    have hsome : List.replicate before quietAction ++ [v] ≠ [] := by simp
    rw [Part.definition, errors_compose hsome, actionsErrorsFrom_append, hquiet, htrigger, hname,
      List.length_replicate, Nat.add_comm]
    simp [actionsErrorsFrom]
  | _ => simp [Part.definition, errors_compose, hone, htrigger, hname]

/-- What reviews say of parts, each by itself. -/
def said (reference : Moment) (ps : List Part) : List String :=
  ps.flatMap fun p => (p.review reference).errors

theorem said_append (front back : List Part) (p : Part) : said reference (front ++ p :: back) =
    said reference front ++ (p.review reference).errors ++ said reference back := by
  simp only [said, List.flatMap_append, List.flatMap_cons, List.append_assoc]

theorem errors_eq_said (h : Composed f) : (rule reference f).errors = said reference (parts f) := by
  rw [errors_of_composed h, said, parts]
  simp only [List.flatMap_append, List.flatMap_cons, List.flatMap_map, errors_review, actionsErrorsFrom_eq 0]
  simp only [List.append_assoc]

/-! ## One part for another -/

/-- One action or condition of `f` is another one in `g`; all else is the same. -/
inductive Replaced (f g : Fields) : Part → Part → Prop
  | action {before after : List Value} {v w : Value}
    (name : g.get? "name" = f.get? "name") (trigger : g.get? "trigger" = f.get? "trigger")
    (conditions : g.get? "conditions" = f.get? "conditions")
    (old : f.get? "actions" = some (.list (before ++ v :: after)))
    (new : g.get? "actions" = some (.list (before ++ w :: after))) :
    Replaced f g (.action before.length v) (.action before.length w)
  | condition {before after : Fields} {path path' : String} {spec spec' : Value}
    (name : g.get? "name" = f.get? "name") (trigger : g.get? "trigger" = f.get? "trigger")
    (actions : g.get? "actions" = f.get? "actions")
    (old : f.get? "conditions" = some (.obj (before ++ (path, spec) :: after)))
    (new : g.get? "conditions" = some (.obj (before ++ (path', spec') :: after))) :
    Replaced f g (.condition path spec) (.condition path' spec')

variable {p q : Part}

theorem Replaced.parts (h : Replaced f g p q) :
    ∃ front back, parts f = front ++ p :: back ∧ parts g = front ++ q :: back := by
  cases h with
  | @action before after v w name trigger conditions old new =>
    unfold Review.parts
    simp only [name, trigger, conditions, old, new, actionList, List.zipIdx_append, List.zipIdx_cons,
      List.map_append, List.map_cons, Nat.zero_add]
    exact ⟨_, _, (List.append_assoc _ _ _).symm, (List.append_assoc _ _ _).symm⟩
  | @condition before after _ _ _ _ name trigger actions old new =>
    refine ⟨.name (f.get? "name") :: .trigger (f.get? "trigger") ::
        before.map fun (path, spec) => .condition path spec,
      after.map (fun (path, spec) => .condition path spec)
        ++ (actionList (f.get? "actions")).zipIdx.map fun (v, before) => .action before v, ?_, ?_⟩
    · simp [Review.parts, old, objectOr]
    · simp [Review.parts, name, trigger, actions, new, objectOr]

theorem Replaced.composed (h : Replaced f g p q) (hf : Composed f) : Composed g := by
  cases h with
  | action name trigger conditions old new =>
    refine ⟨by rw [conditions]; exact hf.conditions, _, new, by simp⟩
  | condition name trigger actions old new =>
    refine ⟨.inr (.inr ⟨_, new⟩), by rw [actions]; exact hf.actions⟩

/-! ## Warnings -/

/-- The warning that a type of action and the field in its parameters give rise to: the status is changed. -/
def loopTextOf? : Option Value → Option Value → Option String
  | some (.str "update_status"), _ =>
    some "update_status on a status_changed trigger may cause an automation loop"
  | some (.str "update_related_tasks"), some (.str "status") =>
    some "update_related_tasks on status for a status_changed trigger may cause an automation loop"
  | _, _ => none

/-- The warning about an action that changes the status of tasks. -/
def loopText? (v : Value) : Option String :=
  let fields := objectOr (some v)
  loopTextOf? (fields.get? "type") ((objectOr (fields.get? "parameters")).get? "field")

/-- The warning about a part of a rule on status changes: about actions without errors alone. -/
def warning? (reference : Moment) (p : Part) : Option String :=
  match p with
  | .action _ v => if (p.review reference).isValid then loopText? v else none
  | _ => none

theorem isValid_review_action {n : Nat} :
    ((Part.action n v).review reference).isValid = true ↔ Clean reference v := by
  rw [isValid, List.isEmpty_iff, errors_review]
  exact actionErrors_eq_nil

/-- Parameters of a type without dates are known just when nothing is said of them. -/
theorem isKnown_iff {type : ActionType} {parameters : Fields} (h : dateParameters type = []) :
    isKnown reference type parameters = true ↔ parameterErrors reference type parameters = [] := by
  have hexplained := Parameters.explained_readFor type { now := reference } parameters
  unfold isKnown parameterErrors
  cases hread : Parameters.readFor type { now := reference } parameters with
  | ok _ => simp [dateErrors, h]
  | issues found =>
    have hsome : found ≠ [] := fun hnil => hexplained (hnil ▸ hread)
    simpa using hsome

/-- Of a type that may be warned about, a review looks at no dates. -/
theorem loopTextOf?_eq_none {type : ActionType} (h : dateParameters type ≠ []) (field : Option Value) :
    loopTextOf? (some (.str type.name)) field = none := by
  cases type <;> first | rfl | exact absurd rfl h

theorem loopTextOf?_related (field : Option Value) :
    loopTextOf? (some (.str "update_related_tasks")) field = match field with
      | some (.str "status") => some
        "update_related_tasks on status for a status_changed trigger may cause an automation loop"
      | _ => none := by
  unfold loopTextOf?
  split
  · next h => exact absurd (Value.str.inj (Option.some.inj h)) (by decide)
  · rfl
  · next hother =>
    split
    · exact (hother rfl rfl).elim
    · rfl

theorem loopWarning?_of_known {type : ActionType} {parameters : Fields}
    (hparts : actionParts v = .ok (type, parameters)) : loopWarning? reference v =
      if isKnown reference type parameters then
        loopTextOf? (some (.str type.name)) (parameters.get? "field") else none := by
  unfold loopWarning?
  simp only [hparts]
  cases isKnown reference type parameters with
  | false => rfl
  | true =>
    cases type with
    | updateRelatedTasks =>
      exact (loopTextOf?_related (parameters.get? "field")).symm
    | _ => rfl

theorem loopWarning?_eq (n : Nat) : loopWarning? reference v = warning? reference (.action n v) := by
  unfold warning?
  dsimp only
  cases hparts : actionParts v with
  | error e =>
    have hunclean : ¬ Clean reference v := by
      rintro ⟨type, parameters, hok, -⟩
      cases hok.symm.trans hparts
    rw [if_neg (mt isValid_review_action.mp hunclean), loopWarning?, hparts]
  | ok p =>
    obtain ⟨type, parameters⟩ := p
    have hclean : Clean reference v ↔ parameterErrors reference type parameters = [] := by
      refine ⟨?_, fun h => ⟨_, _, hparts, h⟩⟩
      rintro ⟨type', parameters', hok, herrors⟩
      cases hok.symm.trans hparts
      exact herrors
    have htext : loopText? v = loopTextOf? (some (.str type.name)) (parameters.get? "field") := by
      obtain ⟨fields, rfl, htype, rfl⟩ := fields_of_actionParts hparts
      rw [← htype]
      rfl
    rw [loopWarning?_of_known hparts, htext]
    by_cases hdates : dateParameters type = []
    · have hknown : isKnown reference type parameters = ((Part.action n v).review reference).isValid := by
        rw [Bool.eq_iff_iff, isKnown_iff hdates, isValid_review_action, hclean]
      rw [hknown]
    · simp only [loopTextOf?_eq_none hdates, ite_self]

theorem filterMap_warning?_parts (f : Fields) : (parts f).filterMap (warning? reference) =
    (actionList (f.get? "actions")).filterMap (loopWarning? reference) := by
  have hconditions : ∀ fields : Fields, (fields.map fun (path, spec) => Part.condition path spec).filterMap
      (warning? reference) = [] := by
    intro fields
    rw [List.filterMap_map]
    exact List.filterMap_eq_nil_iff.mpr fun _ _ => rfl
  have hactions : ∀ (vs : List Value) (n : Nat), ((vs.zipIdx n).map fun (v, before) =>
      Part.action before v).filterMap (warning? reference) = vs.filterMap (loopWarning? reference) := by
    intro vs n
    calc ((vs.zipIdx n).map fun (v, before) => Part.action before v).filterMap (warning? reference)
        = (vs.zipIdx n).filterMap (loopWarning? reference ∘ Prod.fst) := by
          rw [List.filterMap_map]
          exact List.filterMap_congr fun p _ => (loopWarning?_eq p.2).symm
      _ = vs.filterMap (loopWarning? reference) := by rw [← List.filterMap_map, List.zipIdx_map_fst]
  rw [parts, List.filterMap_append, hactions, List.filterMap_cons_none rfl, List.filterMap_cons_none rfl,
    hconditions, List.nil_append]

/-- A review of a definition says what reviews of its parts say, each by itself and in order, so that another
action or condition in the place of one changes nothing of what is said of the others; it warns of the actions
without errors that change the status on a change of status, each once and in order. -/
theorem rule_parts (hf : Composed f) (reference : Moment) :
    (rule reference f).errors = said reference (parts f) ∧
    ((rule reference f).isValid = true ↔ ∀ p ∈ parts f, (p.review reference).isValid = true) ∧
    (∀ g p q, Replaced f g p q → ∃ front back,
      parts f = front ++ p :: back ∧ parts g = front ++ q :: back ∧
      (rule reference f).errors = said reference front ++ (p.review reference).errors ++ said reference back ∧
      (rule reference g).errors = said reference front ++ (q.review reference).errors ++ said reference back) ∧
    (f.get? "trigger" = some (.str "status_changed") →
      (rule reference f).warnings = (parts f).filterMap (warning? reference)) ∧
    (f.get? "trigger" ≠ some (.str "status_changed") → (rule reference f).warnings = []) := by
  refine ⟨errors_eq_said hf, ?_, fun g p q h => ?_, fun h => ?_, fun h => ?_⟩
  · rw [isValid, List.isEmpty_iff, errors_eq_said hf, said, List.flatMap_eq_nil_iff]
    simp only [isValid, List.isEmpty_iff]
  · obtain ⟨front, back, hparts, hparts'⟩ := h.parts
    refine ⟨front, back, hparts, hparts', ?_, ?_⟩
    · rw [errors_eq_said hf, hparts, said_append]
    · rw [errors_eq_said (h.composed hf), hparts', said_append]
  · rw [rule, loopWarnings, if_pos (trigger?_eq_iff.mpr h), filterMap_warning?_parts]
  · rw [rule, loopWarnings, if_neg (mt trigger?_eq_iff.mp h)]

/-- A rule on status changes with an unknown operator, an unknown action and one that changes the status. -/
def loopingRule : Fields :=
  [("trigger", .str "status_changed"), ("conditions", .obj [("task.tag", .obj [("is", .str "late")])]),
    ("actions", .list [.obj [("type", .str "wait")],
      .obj [("type", .str "update_status"), ("parameters", .obj [("status", .str "completed")])]])]

theorem rule_parts_of_loopingRule :
    (rule ⟨0, some 0⟩ loopingRule).errors =
      ["Unknown operator 'is' for 'task.tag'", "Action 1: unknown action type 'wait'"] ∧
    (rule ⟨0, some 0⟩ loopingRule).warnings =
      ["update_status on a status_changed trigger may cause an automation loop"] := by
  have hcomposed : Composed loopingRule := ⟨.inr (.inr ⟨_, rfl⟩), _, rfl, List.cons_ne_nil _ _⟩
  obtain ⟨herrors, -, -, hwarnings, -⟩ := rule_parts hcomposed ⟨0, some 0⟩
  rw [herrors, hwarnings rfl]
  decide +kernel

end TaskAutomation.Review
