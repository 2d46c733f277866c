import TaskAutomation.Proofs.Action.Parameters
import TaskAutomation.Proofs.Engine.Rejection
import TaskAutomation.Proofs.Template
import TaskAutomation.Proofs.Value.Finite
import TaskAutomation.Review

/-!
# What a review of a rule is good for

* `Review.Passes reference a` : an action has a known type, and nothing is said of its parameters;
  `Review.passes_of_value`, `Review.passes_of_rule` : so do the actions of a rule without errors;
* `Review.settles_of_passes` : the dates that a review looks at settle;
* `Action.RestSettles e reference a` : so do the other dates that the action resolves;
* `Engine.accepts_of_review` : an action of a reviewed rule without placeholders is never rejected,
  if its other dates settle; `Engine.rejected_of_review` : a rule whose other dates do not.
-/

namespace TaskAutomation

open Check Program

namespace ActionType

theorem name_of_ofName? {s : String} {type : ActionType} (h : ofName? s = some type) :
    type.name = s := by
  have hname : (type.name == s) = true := List.find?_some (p := fun t : ActionType => t.name == s) h
  exact eq_of_beq hname

end ActionType

/-! ## Actions that pass -/

namespace Review

/-- The action has a known type, and nothing is said of its parameters. -/
def Passes (reference : Moment) (a : Action) : Prop :=
  ∃ type, ActionType.ofName? a.type = some type ∧ parameterErrors reference type a.parameters = []

/-- A list of actions without errors has none in any of them. -/
theorem actionErrors_of_mem {reference : Moment} {n : Nat} {vs : List Value}
    (h : actionsErrorsFrom reference n vs = []) {v : Value} (hv : v ∈ vs) :
    ∃ position, actionErrors reference position v = [] := by
  induction vs generalizing n with
  | nil => cases hv
  | cons w rest ih =>
    rw [actionsErrorsFrom, List.append_eq_nil_iff] at h
    rcases List.mem_cons.mp hv with rfl | hv
    · exact ⟨n, h.1⟩
    · exact ih h.2 hv

/-- The actions of a definition without errors have none. -/
theorem actionErrors_of_isValid {reference : Moment} {f : Fields}
    (h : (rule reference f).isValid = true) {v : Value} (hv : v ∈ actionList (f.get? "actions")) :
    ∃ position, actionErrors reference position v = [] := by
  have herrors : (rule reference f).errors = [] := List.isEmpty_iff.mp h
  have hactions : actionsErrors reference (f.get? "actions") = [] :=
    (List.append_eq_nil_iff.mp herrors).2
  unfold actionList at hv
  split at hv
  · next vs hlist =>
    rw [hlist] at hactions
    cases vs with
    | nil => cases hv
    | cons w rest => exact actionErrors_of_mem hactions hv
  · cases hv

/-- What a review takes an action of a known type for. -/
theorem actionParts_of_known {fields : Fields} {a : Action} {type : ActionType}
    (htype : fields.get? "type" = some (.str a.type))
    (hparameters : fields.get? "parameters" = some (.obj a.parameters)
      ∨ fields.get? "parameters" = none ∧ a.parameters = [])
    (hknown : ActionType.ofName? a.type = some type) :
    actionParts (.obj fields) = .ok (type, a.parameters) := by
  have htext : (some (Value.str a.type)).filter Value.truthy = some (.str a.type) := by
    refine Option.filter_some_pos ?_
    rw [← ActionType.name_of_ofName? hknown]
    cases type <;> rfl
  unfold actionParts
  simp only [htype, htext, hknown]
  rcases hparameters with hgiven | ⟨hnone, hnil⟩
  · rw [hgiven]
    cases a.parameters <;> rfl
  · rw [hnone, hnil]
    rfl

/-- A review does not take an action of an unknown type. -/
theorem actionParts_of_unknown {fields : Fields} {a : Action}
    (htype : fields.get? "type" = some (.str a.type))
    (hunknown : ActionType.ofName? a.type = none) : ∃ e, actionParts (.obj fields) = .error e := by
  unfold actionParts
  simp only [htype]
  cases hfilter : (some (Value.str a.type)).filter Value.truthy with
  | none => exact ⟨_, rfl⟩
  | some v =>
    obtain ⟨heq, -⟩ := Option.filter_eq_some_iff.mp hfilter
    cases heq
    simp only [hunknown]
    exact ⟨_, rfl⟩

/-- Fields without errors that have an action's type and parameters show that it passes. -/
theorem passes_of_actionErrors {reference : Moment} {position : Nat} {fields : Fields} {a : Action}
    (herrors : actionErrors reference position (.obj fields) = [])
    (htype : fields.get? "type" = some (.str a.type))
    (hparameters : fields.get? "parameters" = some (.obj a.parameters)
      ∨ fields.get? "parameters" = none ∧ a.parameters = []) : Passes reference a := by
  unfold actionErrors at herrors
  cases hknown : ActionType.ofName? a.type with
  | none =>
    obtain ⟨e, he⟩ := actionParts_of_unknown htype hknown
    rw [he] at herrors
    cases herrors
  | some type =>
    rw [actionParts_of_known htype hparameters hknown] at herrors
    exact ⟨type, hknown, List.map_eq_nil_iff.mp herrors⟩

/-- An action that is read from a definition without errors passes. -/
theorem passes_of_value {reference : Moment} {f : Fields} {s : Setting} {v : Value} {a : Action}
    (hvalid : (rule reference f).isValid = true) (hv : v ∈ actionList (f.get? "actions"))
    (ha : Action.check s v = .ok a) : Passes reference a := by
  obtain ⟨position, herrors⟩ := actionErrors_of_isValid hvalid hv
  obtain ⟨fields, rfl, htype, hparameters⟩ := Action.parts_of_check ha
  exact passes_of_actionErrors herrors htype hparameters

/-- An action of finite numbers of a rule without errors passes. -/
theorem passes_of_rule {reference : Moment} {r : Rule} {a : Action}
    (hvalid : (rule reference r.fields).isValid = true) (ha : a ∈ r.actions)
    (hfinite : Value.allFiniteFields a.parameters = true) : Passes reference a := by
  have hv : a.value ∈ actionList (Fields.get? r.fields "actions") :=
    List.mem_map_of_mem ha
  obtain ⟨position, herrors⟩ := actionErrors_of_isValid hvalid hv
  refine passes_of_actionErrors herrors rfl (.inl ?_)
  show some (Value.obj (Value.storableFields a.parameters)) = _
  rw [Value.storableFields_of_allFinite _ hfinite]

/-! ## Dates -/

/-- A date that a review looks at is read as it is, or as null. -/
theorem get?_of_date {type : ActionType} {s : Setting} {f : Fields} {p : Parameters} {name : String}
    {spec : Value} (hread : Parameters.readFor type s f = .ok p) (hname : name ∈ dateParameters type)
    (hspec : p.get? name = some spec) : spec = .null ∨ f.get? name = some spec := by
  obtain ⟨fields, hfields, hp⟩ := Checked.andThen_eq_ok.mp hread
  have hdate : ∃ q ∈ type.parameters, q.name = name ∧
      ∀ v, q.read s f = .ok v → v = .null ∨ f.get? name = some v := by
    cases type <;> simp only [dateParameters, List.mem_singleton, List.not_mem_nil] at hname <;>
      subst hname
    case reschedule =>
      exact ⟨.requiredText "due_date", List.mem_singleton.mpr rfl, rfl, fun v hv =>
        .inr (Parameter.read_requiredText hv)⟩
    case createReminder =>
      exact ⟨.textOrNull "remind_at", by simp [ActionType.parameters], rfl, fun v =>
        Parameter.read_textOrNull⟩
    all_goals
      exact ⟨.textOrNull "due_date", by simp [ActionType.parameters], rfl, fun v =>
        Parameter.read_textOrNull⟩
  obtain ⟨q, hq, rfl, hdate⟩ := hdate
  obtain ⟨v, hv, hread⟩ := Parameter.get?_of_readAll hfields type.nodup_parameters hq
  have hp' : p.get? q.name = Fields.get? fields q.name := by
    split at hp <;> cases hp
    rfl
  rw [hp', hv] at hspec
  cases hspec
  exact hdate _ hread

/-- The dates that a review looks at settle, if it says nothing and there are no placeholders. -/
theorem settles_of_dateErrors {reference : Moment} {type : ActionType} {s : Setting} {f : Fields}
    {p : Parameters} {name : String} {spec : Value} (herrors : dateErrors reference type f = [])
    (hplain : Template.mentionsFields f = false) (hread : Parameters.readFor type s f = .ok p)
    (hname : name ∈ dateParameters type) (hspec : p.get? name = some spec) :
    DueDate.Settles reference spec := by
  rcases get?_of_date hread hname hspec with hnull | hgiven
  · exact .inl hnull
  have hgood : isBadDate reference spec = false := by
    have herror := List.filterMap_eq_nil_iff.mp herrors name hname
    rw [hgiven, Option.bind_some] at herror
    split at herror
    · cases herror
    · next hgood => exact Bool.eq_false_iff.mpr hgood
  have hmentions := Template.mentions_of_get? hplain hgiven
  unfold isBadDate at hgood
  split at hgood
  · exact .inl rfl
  · rw [Template.mentions] at hmentions
    rw [hmentions, Bool.not_false, Bool.true_and, Option.isNone_eq_false_iff] at hgood
    exact .inr hgood
  · exact .inr (Option.isNone_eq_false_iff.mp hgood)

end Review

/-- The dates of an action settle that it resolves but a review does not look at. -/
def Action.RestSettles (e : Engine) (reference : Moment) (a : Action) : Prop :=
  ∀ type p, ActionType.ofName? a.type = some type →
    Parameters.readFor type { now := reference } a.parameters = .ok p →
    ∀ spec ∈ type.dates e.settings p,
      (∀ name ∈ Review.dateParameters type, p.get? name ≠ some spec) →
      DueDate.Settles reference spec

/-- Only follow-ups, reminders, lists of subtasks and updates of related tasks resolve such dates. -/
theorem Action.restSettles_of_type {e : Engine} {reference : Moment} {a : Action} {type : ActionType}
    (htype : ActionType.ofName? a.type = some type) (h : type ∉ [ActionType.createFollowUp,
      .createReminder, .createSubtasks, .updateRelatedTasks]) : a.RestSettles e reference := by
  intro type' p htype' _ spec hspec hrest
  rw [htype] at htype'
  cases htype'
  have hdate : ∀ name ∈ Review.dateParameters type, spec = p.given name →
      DueDate.Settles reference spec := by
    intro name hname hgiven
    cases hget : p.get? name with
    | none =>
      rw [hgiven, Parameters.given, hget]
      exact .inl rfl
    | some v =>
      rw [Parameters.given_of_get? hget] at hgiven
      exact absurd (hgiven ▸ hget) (hrest name hname)
  cases type with
  | createTask => exact hdate "due_date" List.mem_cons_self (List.mem_singleton.mp hspec)
  | reschedule => exact hdate "due_date" List.mem_cons_self (List.mem_singleton.mp hspec)
  | createFollowUp | createReminder | createSubtasks | updateRelatedTasks => exact absurd h (by simp)
  | _ => exact .inl (List.mem_singleton.mp hspec)

namespace Engine

variable {e : Engine} {reference : Moment} {a : Action}

/-- Parameters that fit at any time are read as such. -/
theorem succeeds_parameters {p : Parameters} {task : Task} {context : Fields}
    (hread : ∀ now, Parameters.read a.type { now } (a.filled task context) = .ok p) :
    (parameters a task context).Succeeds (· = p) := by
  refine .after_setting fun now => ?_
  rw [hread now]
  exact .done rfl

/-- An action whose parameters fit and whose dates settle is never rejected. -/
theorem accepts_dispatch {type : ActionType} {p : Parameters} {task : Task} {context : Fields}
    {rule : Option Rule} (htype : e.registry.lookup a.type = some type)
    (hread : ∀ now, Parameters.read a.type { now } (a.filled task context) = .ok p)
    (hdates : ∀ spec ∈ type.dates e.settings p, DueDate.Settles reference spec) :
    Accepts (e.dispatch a task context rule (some reference)) := by
  have hparameters := succeeds_parameters hread
  refine accepts_guard ?_
  rw [htype]
  refine .bind_of_yields (.of_succeeds hparameters) hparameters.yields fun q hq => ?_
  rw [hq]
  have hrun : Accepts (type.run p task ⟨e.settings, reference, rule, context⟩) :=
    ActionType.accepts_run p task _ hdates
  refine .bind_of_yields (R := (· = reference)) (.done _) (.done rfl) fun now hnow => ?_
  rw [hnow]
  refine .bind_attempt hrun (fun result => .done _) fun f hf => .fail ?_
  rw [Failure.isRejection_ofExecutor, hf]

/-- An action that passes a review and has no placeholders is never rejected, if its other dates
settle. -/
theorem accepts_of_passes (hregistry : ∀ type : ActionType, e.registry.lookup type.name = some type)
    (hpasses : Review.Passes reference a) (hplain : Template.mentionsFields a.parameters = false)
    (hrest : a.RestSettles e reference) (task : Task) (context : Fields) (rule : Option Rule) :
    Accepts (e.dispatch a task context rule (some reference)) := by
  obtain ⟨type, hknown, herrors⟩ := hpasses
  unfold Review.parameterErrors at herrors
  cases hfor : Parameters.readFor type { now := reference } a.parameters with
  | issues found =>
    rw [hfor] at herrors
    have hnil : found = [] := List.map_eq_nil_iff.mp herrors
    rw [hnil] at hfor
    exact absurd hfor (Parameters.explained_readFor type _ _)
  | ok p =>
    rw [hfor] at herrors
    have htype : e.registry.lookup a.type = some type := by
      rw [← ActionType.name_of_ofName? hknown]
      exact hregistry type
    refine accepts_dispatch (p := p) htype (fun now => ?_) fun spec hspec => ?_
    · unfold Parameters.read Action.filled
      rw [hknown, Template.interpolateFields_of_not_mentions _ hplain]
      dsimp only
      rw [Parameters.readFor_eq type now reference, hfor]
    · by_cases hreviewed : ∃ name ∈ Review.dateParameters type, p.get? name = some spec
      · obtain ⟨name, hname, hget⟩ := hreviewed
        exact Review.settles_of_dateErrors herrors hplain hfor hname hget
      · refine hrest type p hknown hfor spec hspec fun name hname hget => ?_
        exact hreviewed ⟨name, hname, hget⟩

/-- An action of a rule or of a definition that a review finds no errors in is never rejected with
the same reference, if it has no placeholders and its other dates settle. The review sees null for
every number of a rule that is not finite. -/
theorem accepts_of_review (hregistry : ∀ type : ActionType, e.registry.lookup type.name = some type)
    (reference : Moment) :
    (∀ (r : Rule) (a : Action), (Review.rule reference r.fields).isValid = true → a ∈ r.actions →
      Value.allFiniteFields a.parameters = true → Template.mentionsFields a.parameters = false →
      a.RestSettles e reference →
      ∀ task context rule, Accepts (e.dispatch a task context rule (some reference)))
    ∧ ∀ (f : Fields) (s : Setting) (v : Value) (a : Action),
      (Review.rule reference f).isValid = true → v ∈ Review.actionList (f.get? "actions") →
      Action.check s v = .ok a → Template.mentionsFields a.parameters = false →
      a.RestSettles e reference →
      ∀ task context rule, Accepts (e.dispatch a task context rule (some reference)) := by
  refine ⟨fun r a hvalid ha hfinite => ?_, fun f s v a hvalid hv ha => ?_⟩
  · exact accepts_of_passes hregistry (Review.passes_of_rule hvalid ha hfinite)
  · exact accepts_of_passes hregistry (Review.passes_of_value hvalid hv ha)

theorem lookup_standard (type : ActionType) : Registry.standard.lookup type.name = some type := by
  cases type <;> rfl

/-- A rule with a task that is due in three days. -/
def plainRule : Rule := { overdueRule with actions :=
  [⟨"create_task", [("title", .str "Call"), ("due_date", .str "+3 days")]⟩] }

/-- A review finds no errors in it, and its action is not rejected. -/
theorem accepts_of_review_plain :
    (Review.rule (Moment.ofInstant 0) plainRule.fields).isValid = true
      ∧ Accepts (dispatch {} ⟨"create_task", [("title", .str "Call"), ("due_date", .str "+3 days")]⟩
        overdueTask.task [] none (some (Moment.ofInstant 0))) := by
  have hvalid : (Review.rule (Moment.ofInstant 0) plainRule.fields).isValid = true := by
    decide +kernel
  refine ⟨hvalid, (accepts_of_review (e := {}) lookup_standard (Moment.ofInstant 0)).1 plainRule _
    hvalid (List.mem_singleton.mpr rfl) rfl (by decide +kernel) ?_ _ _ _⟩
  have hknown : ActionType.ofName? "create_task" = some .createTask := rfl
  exact Action.restSettles_of_type hknown (by decide)

/-- A rule with dates that no review looks at: those of a list of subtasks, and the one that related
tasks are set to. -/
def somedayRule : Rule := { overdueRule with actions :=
  [⟨"create_subtasks", [("subtasks", .list [.obj [("title", .str "Call"), ("due_date", .str "someday")]])]⟩,
    ⟨"update_related_tasks", [("field", .str "due_date"), ("value", .str "someday")]⟩] }

/-- A review finds no errors in it, but its actions are rejected. -/
theorem rejected_of_review :
    (Review.rule (Moment.ofInstant 0) somedayRule.fields).isValid = true
      ∧ (somedayRule.actions.all fun a => Value.allFiniteFields a.parameters
        && !Template.mentionsFields a.parameters
        && isRejected ((dispatch {} a overdueTask.task [] none (some (Moment.ofInstant 0))).run
          blankWorld).1) = true := by
  decide +kernel

end Engine

end TaskAutomation
