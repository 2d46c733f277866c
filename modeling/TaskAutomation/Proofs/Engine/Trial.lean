import TaskAutomation.Proofs.Engine.Accounting
import TaskAutomation.Proofs.Template
import TaskAutomation.Proofs.Value.Fields

/-!
# A trial agrees with a run

* `Template.PassesLast path` : a path does not lead to the result of the last action;
  `Scope.resolve_put_last` : it leads to the same place whatever that result is;
* `Engine.dispatchGiven` : what becomes of an action once its placeholders are filled in;
  `Engine.Step`, `Engine.stepsFrom` : the actions of a rule, each with the context and the parameters
  that it is dispatched with; `Engine.runActionsFrom_eq` : the actions run as these steps;
* `Engine.contextAfter context results` : the context with the result of the last action that
  succeeded; `Engine.succeeds_stepsFrom` : each step gets it;
* `Engine.trial_agrees` : with nothing out of reach a trial and a run match alike, and the trial plans
  the parameters that the run dispatches, where their paths pass the result of the last action.
-/

namespace TaskAutomation

open Program

/-! ## Paths -/

namespace Template

/-- The path neither is the context as a whole, nor leads to the result of the last action in it or
beside it. -/
def PassesLast (path : List Char) : Prop :=
  Path.segments path ≠ ["context".toList]
    ∧ ¬["last_result".toList] <+: Path.segments path
    ∧ ¬["context".toList, "last_result".toList] <+: Path.segments path

end Template

/-- A context that differs in the result of the last action alone has the same other fields. -/
theorem Scope.step?_put_last (context : Fields) (last : Value) {seg : List Char}
    (h : seg ≠ "last_result".toList) :
    (Value.obj (context.put "last_result" last)).step? seg = (Value.obj context).step? seg := by
  refine Fields.get?_put_ne context last fun heq => h ?_
  rw [← heq, String.toList_ofList]

/-- What paths that pass the result of the last action lead to does not depend on it. -/
theorem Scope.resolve_put_last (task context : Fields) (last : Value) {path : List Char}
    (h : Template.PassesLast path) :
    (Scope.build task (context.put "last_result" last)).resolve path
      = (Scope.build task context).resolve path := by
  obtain ⟨hwhole, hbeside, hwithin⟩ := h
  unfold Value.resolve
  split
  · rfl
  cases hsegments : Path.segments path with
  | nil => exact absurd hsegments (Path.segments_ne_nil path)
  | cons seg segs =>
    rw [hsegments] at hwhole hbeside hwithin
    have hseg : seg ≠ "last_result".toList := by
      rintro rfl
      exact hbeside (List.prefix_append _ segs)
    unfold Value.walk
    by_cases hcontext : seg = "context".toList
    · subst hcontext
      have hstep : ∀ fields : Fields, (Scope.build task fields).step? "context".toList
          = some (.obj fields) := fun fields => Fields.get?_put_self _ _
      rw [hstep, hstep, Option.bind_some, Option.bind_some]
      cases segs with
      | nil => exact absurd rfl hwhole
      | cons next segs =>
        unfold Value.walk
        rw [Scope.step?_put_last context last]
        rintro rfl
        exact hwithin (List.prefix_append _ segs)
    · have hname : String.ofList seg ≠ "context" := fun heq => hcontext (by
        rw [← heq, String.toList_ofList])
      have hstep : (Scope.build task (context.put "last_result" last)).step? seg
          = (Scope.build task context).step? seg := by
        show (Scope.fields _ _).get? _ = (Scope.fields _ _).get? _
        by_cases htask : String.ofList seg = "task"
        · rw [htask, Scope.get?_task, Scope.get?_task]
        · rw [Scope.get?_beside _ _ htask hname, Scope.get?_beside _ _ htask hname]
          exact Scope.step?_put_last context last hseg
      rw [hstep]

/-- The fields of an action that pass the result of the last action are filled in alike. -/
theorem Action.filled_put_last (a : Action) (task : Task) (context : Fields) (last : Value)
    (h : ∀ path ∈ Template.pathsFields a.parameters, Template.PassesLast path) :
    a.filled task (context.put "last_result" last) = a.filled task context :=
  Template.interpolateFields_congr a.parameters fun path hpath =>
    congrArg (Option.map Template.render) (Scope.resolve_put_last task.fields context last (h path hpath))

namespace Engine

/-! ## Steps -/

/-- Filled in parameters, checked for their type. -/
def checkGiven (type : String) (given : Fields) : Program Parameters := do
  match Parameters.read type (← Program.setting) given with
  | .ok p => return p
  | .issues found => .fail (.badParameters type found)

/-- What becomes of an action of a type once its placeholders are filled in. -/
def dispatchGiven (e : Engine) (type : String) (given : Fields) (task : Task) (context : Fields)
    (rule : Option Rule) (moment : Option Moment) : Program Fields :=
  (Operation.mk "dispatcher" "execute").guard none do
    match e.registry.lookup type with
    | none => .fail (.unknownAction type)
    | some executor =>
      let p ← checkGiven type given
      let now ← match moment with
        | some m => pure m
        | none => Program.now
      match ← Program.attempt (executor.run p task ⟨e.settings, now, rule, context⟩) with
      | .ok result => return result
      | .error f => .fail f.ofExecutor

/-- An action is dispatched with its placeholders filled in. -/
theorem dispatch_eq (e : Engine) (a : Action) (task : Task) (context : Fields)
    (rule : Option Rule) (moment : Option Moment) :
    e.dispatch a task context rule moment
      = e.dispatchGiven a.type (a.filled task context) task context rule moment := rfl

/-- An action of a rule that has run: the context and the parameters it was dispatched with, what it
came to, and the entry that is kept of it. -/
structure Step where
  action : Action
  context : Fields
  given : Fields
  result : Except Failure Fields
  outcome : ActionOutcome

/-- Runs actions in order, and tells what each was dispatched with. -/
def stepsFrom (e : Engine) (rule : Rule) (x : Occurrence) : Fields → List Action → Program (List Step)
  | _, [] => return []
  | context, a :: rest => do
    let given := a.filled x.task context
    let result ← attempt (e.dispatchGiven a.type given x.task context (some rule) (some x.occurredAt))
    count (.actionExecuted a.type result.toBool)
    let outcome ← outcomeOf a result
    return ⟨a, context, given, result, outcome⟩ :: (← stepsFrom e rule x (after context result) rest)

variable {e : Engine} {rule : Rule} {x : Occurrence} {w : World}

/-- The actions of a rule run as these steps. -/
theorem runActionsFrom_eq (context : Fields) (actions : List Action) :
    e.runActionsFrom rule x context actions
      = List.map Step.outcome <$> e.stepsFrom rule x context actions := by
  induction actions generalizing context with
  | nil => rfl
  | cons a rest ih =>
    simp only [runActionsFrom, stepsFrom, ih, dispatch_eq, map_bind, map_pure, bind_map_left,
      List.map_cons]

/-! ## Contexts -/

/-- The context with the result of the last action that succeeded, if one did. -/
def contextAfter (context : Fields) (results : List (Except Failure Fields)) : Fields :=
  match (results.filterMap Except.toOption).getLast? with
  | some last => context.put "last_result" (.obj last)
  | none => context

/-- What one more action does to the context. -/
theorem after_contextAfter (context : Fields) (results : List (Except Failure Fields))
    (result : Except Failure Fields) :
    after (contextAfter context results) result = contextAfter context (results ++ [result]) := by
  unfold contextAfter
  cases result with
  | error f =>
    have hnone : [(.error f : Except Failure Fields)].filterMap Except.toOption = [] := rfl
    rw [List.filterMap_append, hnone, List.append_nil]
    rfl
  | ok last =>
    have hsome : [(.ok last : Except Failure Fields)].filterMap Except.toOption = [last] := rfl
    rw [List.filterMap_append, hsome, List.getLast?_append]
    cases (results.filterMap Except.toOption).getLast? with
    | none => rfl
    | some earlier => exact Fields.put_put _ _ _

/-- Each step gets the context after those before it, and its parameters filled in from there. -/
def Follows (x : Occurrence) (context : Fields) (steps : List Step) : Prop :=
  ∀ i (hi : i < steps.length),
    steps[i].context = contextAfter context ((steps.take i).map Step.result)
      ∧ steps[i].given = steps[i].action.filled x.task steps[i].context

theorem Follows.concat {context : Fields} {steps : List Step} {step : Step}
    (h : Follows x context steps)
    (hcontext : step.context = contextAfter context (steps.map Step.result))
    (hgiven : step.given = step.action.filled x.task step.context) :
    Follows x context (steps ++ [step]) := by
  intro i hi
  by_cases hlt : i < steps.length
  · rw [List.getElem_append_left hlt, List.take_append_of_le_length (Nat.le_of_lt hlt)]
    exact h i hlt
  · have hlast : i = steps.length := by
      rw [List.length_append, List.length_singleton] at hi
      omega
    subst hlast
    rw [List.getElem_concat_length rfl, List.take_left]
    exact ⟨hcontext, hgiven⟩

/-- The trigger itself has no result of a last action. -/
theorem get?_context_last (x : Occurrence) : x.context.get? "last_result" = none := by
  unfold Occurrence.context Occurrence.dueContext Occurrence.changeContext
  cases x.daysOverdue <;> cases x.daysUntilDue <;> cases x.previousTask <;> cases x.timeEntry <;>
    simp [Fields.get?]

/-- Whatever fails, there is a step for each action, in order, and each follows those before it. -/
theorem succeeds_stepsFrom (before : List Step) (context : Fields) (actions : List Action) :
    (e.stepsFrom rule x (contextAfter context (before.map Step.result)) actions).Succeeds
      fun steps => steps.map Step.action = actions
        ∧ (Follows x context before → Follows x context (before ++ steps)) := by
  induction actions generalizing before with
  | nil =>
    refine .done ⟨rfl, fun h => ?_⟩
    rwa [List.append_nil]
  | cons a rest ih =>
    refine .after_attempt fun result => .bind (.call _) fun _ _ => ?_
    refine .bind (succeeds_outcomeOf a result) fun outcome _ => ?_
    let step : Step := ⟨a, contextAfter context (before.map Step.result),
      a.filled x.task (contextAfter context (before.map Step.result)), result, outcome⟩
    have hnext : after (contextAfter context (before.map Step.result)) result
        = contextAfter context ((before ++ [step]).map Step.result) := by
      rw [after_contextAfter, List.map_append]
      rfl
    rw [hnext]
    refine .bind (ih (before ++ [step])) fun steps hsteps => .done ⟨?_, fun h => ?_⟩
    · rw [List.map_cons, hsteps.1]
    · have hall := hsteps.2 (Follows.concat h (by rfl : step.context = _) rfl)
      rwa [List.append_assoc] at hall

/-- Whatever fails, there is a step for each action of a rule, and each follows those before it. -/
theorem succeeds_steps (rule : Rule) (x : Occurrence) (context : Fields) (actions : List Action) :
    (e.stepsFrom rule x context actions).Succeeds
      fun steps => steps.map Step.action = actions ∧ Follows x context steps := by
  intro log outcome h
  obtain ⟨steps, houtcome, hactions, hfollows⟩ := succeeds_stepsFrom [] context actions log outcome h
  exact ⟨steps, houtcome, hactions, hfollows fun i hi => absurd hi (Nat.not_lt_zero i)⟩

end Engine

/-! ## Runs with nothing out of reach -/

/-- With nothing out of reach the program comes to a result. -/
def Program.Completes {α : Type} (p : Program α) : Prop :=
  ∀ w : World, w.outages = [] → ∃ a w', p.run w = (.ok a, w') ∧ w'.outages = []

namespace Program.Completes

variable {α β : Type}

theorem of_ok {p : Program α} (h : ∀ w : World, w.outages = [] → ∃ a, (p.run w).1 = .ok a) :
    p.Completes := by
  intro w ho
  obtain ⟨a, ha⟩ := h w ho
  exact ⟨a, (p.run w).2, Prod.ext ha rfl, (p.run_outages w).trans ho⟩

theorem of_succeeds {Q : α → Prop} {p : Program α} (h : p.Succeeds Q) : p.Completes := by
  refine of_ok fun w _ => ?_
  obtain ⟨a, ha, -⟩ := h _ _ (p.ends_trace w)
  exact ⟨a, ha⟩

theorem bind {p : Program α} {g : α → Program β} (hp : p.Completes) (hg : ∀ a, (g a).Completes) :
    (p >>= g).Completes := by
  intro w ho
  obtain ⟨a, w₁, hrun, ho₁⟩ := hp w ho
  obtain ⟨b, w₂, hrest, ho₂⟩ := hg a w₁ ho₁
  exact ⟨b, w₂, (run_bind_ok hrun).trans hrest, ho₂⟩

theorem call (c : Call) : (Program.call c).Completes := of_succeeds (.call c)

theorem store (c : Command) : (Program.store c).Completes := call (.store c)

theorem done (a : α) : (Program.done a).Completes := fun _ ho => ⟨a, _, rfl, ho⟩

theorem guarded {o : Operation} {argument : Option Value} {subject : Subject} {body : Program α}
    (h : body.Completes) : (o.guarded argument subject body).Completes := by
  intro w ho
  rw [Operation.run_guarded ho]
  exact h w ho

end Program.Completes

namespace Engine

variable {e : Engine} {rule : Rule} {x : Occurrence} {w : World}

theorem completes_keep (record : Execution) : (e.keep record).Completes := by
  have hpush : ∀ key cell limit, (Rules.pushBounded key cell limit).Completes :=
    fun _ _ _ => .bind (.store _) fun _ => .store _
  refine .guarded (.bind (.guarded (.bind (hpush _ _ _) fun _ => hpush _ _ _)) fun _ => ?_)
  refine .bind (.guarded (.bind (.store _) fun there => ?_)) fun _ => .call _
  split
  · exact .bind (.store _) fun _ => .store _
  · exact .done _

theorem completes_recordOf (actions : List ActionOutcome) (status : ExecutionStatus)
    (error : Option String) : (recordOf rule x actions status error).Completes :=
  .of_succeeds (succeeds_recordOf rule x actions status error)

/-- A rule that acts does so in steps, and its record has their entries. -/
theorem run_act (e : Engine) (rule : Rule) (x : Occurrence) (ho : w.outages = []) :
    ∃ record steps w', ((e.act rule x).run w).1
        = .ok { ruleId := rule.id, matched := true, record := some record }
      ∧ (e.stepsFrom rule x x.context rule.actions).run w = (.ok steps, w')
      ∧ record.actions = steps.map Step.outcome ∧ steps.map Step.action = rule.actions
      ∧ Follows x x.context steps := by
  have hsucceeds := succeeds_steps (e := e) rule x x.context rule.actions
  obtain ⟨steps, w₁, hsteps, ho₁⟩ := Completes.of_succeeds hsucceeds w ho
  obtain ⟨hactions, hfollows⟩ := hsucceeds.yields.run (congrArg Prod.fst hsteps)
  have hrun : (e.runActions rule x).run w = (.ok (steps.map Step.outcome), w₁) := by
    unfold runActions
    rw [Operation.run_guardFor ho, runActionsFrom_eq, map_eq_pure_bind, run_bind_ok hsteps]
    rfl
  have hrecords := succeeds_recordOf rule x (steps.map Step.outcome)
    (.of (steps.map Step.outcome)) (errorText? (steps.map Step.outcome))
  obtain ⟨record, w₂, hrecord, ho₂⟩ := Completes.of_succeeds hrecords w₁ ho₁
  obtain ⟨hentries, -, -⟩ := hrecords.yields.run (congrArg Prod.fst hrecord)
  obtain ⟨_, w₃, hkeep, -⟩ := completes_keep (e := e) record w₂ ho₂
  refine ⟨record, steps, w₁, ?_, hsteps, hentries, hactions, hfollows⟩
  unfold act
  rw [run_bind_ok hrun, run_bind_ok hrecord, run_bind_ok hkeep]
  rfl

theorem run_attempt_evaluate (ho : w.outages = []) :
    (attempt (evaluate rule x)).run w = (.ok (rule.matches? x), w) := by
  rw [run_attempt]
  unfold evaluate
  rw [Operation.run_guardFor ho, run_ofExcept]

/-- A trial tells whether the conditions hold, and plans the actions if they do. -/
theorem run_trial (rule : Rule) (x : Occurrence) (ho : w.outages = []) :
    ∃ t, ((trial rule x).run w).1 = .ok t ∧ (t.matched = true ↔ rule.matches? x = .ok true)
      ∧ (t.matched = true → t.planned = rule.actions.map (planned x)) := by
  unfold trial
  rw [Operation.run_guard ho, run_bind_ok (run_now w)]
  dsimp only
  rw [run_bind_ok (run_attempt_evaluate ho)]
  cases hmatch : rule.matches? x with
  | error f => exact ⟨_, rfl, by simp, nofun⟩
  | ok matched =>
    refine ⟨_, rfl, by simp, fun h => ?_⟩
    exact if_pos h

/-- A run that is not limited to once a day finds out the same, and then acts. -/
theorem run_execute (e : Engine) (rule : Rule) (x : Occurrence) (ho : w.outages = []) :
    ∃ o, ((e.execute rule x false).run w).1 = .ok o ∧ (o.matched = true ↔ rule.matches? x = .ok true)
      ∧ (o.matched = true → ∃ record steps w₁ w₂, o.record = some record ∧ w₁.store = w.store
        ∧ (e.stepsFrom rule x x.context rule.actions).run w₁ = (.ok steps, w₂)
        ∧ record.actions = steps.map Step.outcome ∧ steps.map Step.action = rule.actions
        ∧ Follows x x.context steps) := by
  unfold execute
  rw [Operation.run_guardFor ho, run_bind_ok (run_attempt_evaluate ho)]
  cases hmatch : rule.matches? x with
  | error f =>
    have hcompletes : (e.recordUntried rule x f).Completes :=
      .bind (completes_recordOf _ _ _) fun record => .bind (completes_keep record) fun _ => .done _
    have hyields : (e.recordUntried rule x f).Yields fun o => o.matched = false :=
      .after fun record => .after fun _ => .done rfl
    obtain ⟨o, w', hrun, -⟩ := hcompletes w ho
    have hmatched := hyields.run (congrArg Prod.fst hrun)
    refine ⟨o, congrArg Prod.fst hrun, ?_, ?_⟩
    · simp [hmatched]
    · intro h
      rw [hmatched] at h
      cases h
  | ok matched =>
    dsimp only
    rw [run_bind_ok (run_count _ w)]
    cases matched with
    | false => exact ⟨_, rfl, by simp, nofun⟩
    | true =>
      obtain ⟨record, steps, w', hact, hsteps, hentries, hactions, hfollows⟩ := run_act e rule x
        (w := { w with counts := tally (.ruleEvaluated x.event true) w.counts }) ho
      refine ⟨_, hact, by simp, fun _ => ?_⟩
      exact ⟨record, steps, { w with counts := tally (.ruleEvaluated x.event true) w.counts }, w', rfl,
        rfl, hsteps, hentries, hactions, hfollows⟩

/-! ## Agreement -/

/-- A context that only the result of the last action was added to fills in alike what passes it. -/
theorem filled_contextAfter (a : Action) (task : Task) (context : Fields)
    (results : List (Except Failure Fields))
    (h : ∀ path ∈ Template.pathsFields a.parameters, Template.PassesLast path) :
    a.filled task (contextAfter context results) = a.filled task context := by
  unfold contextAfter
  split
  · exact a.filled_put_last task context _ h
  · rfl

/-- What a trial of a rule tells is what a run of it does, whose actions ran as some steps. -/
structure Agrees (e : Engine) (rule : Rule) (x : Occurrence) (w : World) (t : Trial)
    (o : RuleOutcome) : Prop where
  /-- Both match, or neither does, where the conditions cannot be tried included. -/
  matched : t.matched = o.matched
  holds : t.matched = true ↔ rule.matches? x = .ok true
  /-- Only actions of the rule itself put the result of an action into the context. -/
  unset : x.context.get? "last_result" = none
  /-- The actions of the rule run as steps. -/
  runs : e.runActionsFrom rule x x.context rule.actions
    = List.map Step.outcome <$> e.stepsFrom rule x x.context rule.actions
  /-- Each action is dispatched in the context after those before it, and with the parameters that
  the trial plans where it is the first or its placeholders pass the result of the last action. -/
  dispatched : t.matched = true → ∃ record steps w₁ w₂, o.record = some record
    ∧ w₁.store = w.store
    ∧ (e.stepsFrom rule x x.context rule.actions).run w₁ = (.ok steps, w₂)
    ∧ record.actions = steps.map Step.outcome ∧ steps.map Step.action = rule.actions
    ∧ Follows x x.context steps ∧ t.planned.length = steps.length
    ∧ ∀ i (hi : i < steps.length),
      (i = 0 ∨ ∀ path ∈ Template.pathsFields steps[i].action.parameters, Template.PassesLast path) →
      t.planned[i]? = some { steps[i].action with parameters := steps[i].given }

/-- With nothing out of reach a trial of a rule agrees with a run of it. -/
theorem trial_agrees (e : Engine) (rule : Rule) (x : Occurrence) (ho : w.outages = []) :
    ∃ t o, ((trial rule x).run w).1 = .ok t ∧ ((e.execute rule x false).run w).1 = .ok o
      ∧ Agrees e rule x w t o := by
  obtain ⟨t, htrial, hholds, hplanned⟩ := run_trial rule x ho
  obtain ⟨o, hexecute, hmatched, hacts⟩ := run_execute e rule x ho
  have hsame : t.matched = o.matched := Bool.eq_iff_iff.mpr (hholds.trans hmatched.symm)
  refine ⟨t, o, htrial, hexecute, hsame, hholds, get?_context_last x, runActionsFrom_eq _ _,
    fun hmatch => ?_⟩
  obtain ⟨record, steps, w₁, w₂, hrecord, hstore, hsteps, hentries, hactions, hfollows⟩ :=
    hacts (hsame ▸ hmatch)
  have hplans : t.planned = steps.map fun step => planned x step.action := by
    rw [hplanned hmatch, ← hactions, List.map_map]
    rfl
  refine ⟨record, steps, w₁, w₂, hrecord, hstore, hsteps, hentries, hactions, hfollows, ?_, ?_⟩
  · rw [hplans, List.length_map]
  · intro i hi hpasses
    obtain ⟨hcontext, hgiven⟩ := hfollows i hi
    have hfilled : steps[i].given = steps[i].action.filled x.task x.context := by
      rw [hgiven, hcontext]
      rcases hpasses with hfirst | hpaths
      · subst hfirst
        rfl
      · exact filled_contextAfter _ _ _ _ hpaths
    rw [hplans, List.getElem?_map, List.getElem?_eq_getElem hi, Option.map_some, planned, hfilled]

/-- A rule that writes a message and then quotes the result of doing so. -/
def quotingRule : Rule :=
  { overdueRule with actions := [⟨"log_activity", [("description", .str "Late")]⟩,
    ⟨"log_activity", [("description", .str "Noted as \x7blast_result.activity_id\x7d")]⟩] }

/-- It matches, and its trial agrees with its run. -/
theorem trial_agrees_of_quoting :
    Rule.matches? quotingRule overdueTask = .ok true
      ∧ ∃ t o, ((trial quotingRule overdueTask).run { clock := Moment.ofInstant 0 }).1 = .ok t
        ∧ ((execute {} quotingRule overdueTask false).run { clock := Moment.ofInstant 0 }).1 = .ok o
        ∧ Agrees {} quotingRule overdueTask { clock := Moment.ofInstant 0 } t o :=
  ⟨rfl, trial_agrees {} quotingRule overdueTask rfl⟩

end Engine

end TaskAutomation
