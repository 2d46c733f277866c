import TaskAutomation.Proofs.Engine.Careful
import TaskAutomation.Proofs.Program.Log
import TaskAutomation.Proofs.Rule

/-!
# Every rule is accounted for

* `Entry.records log` : the records that were handed over to be kept;
* `Tells a o` : the entry of an action in a record, a result or an error; `Accounts rule record` : a
  record with one such entry for each action of a rule, and the status and the error that they
  amount to;
* `Engine.Matched rule x log` : the conditions of a rule were tried and hold;
* `Engine.Handled` : a rule with its outcome and its part of a log; `Engine.HandlesAll` : all rules
  that are active and react to the trigger, in order, with one outcome each;
* `Engine.accounting_complete` : whatever fails, all rules are handled.
-/

namespace TaskAutomation

open Program

/-- The record that is handed over to be kept with a call. -/
def Call.record? : Call → Option Execution
  | .enter o _ (.record r) => if o = Rules.operation "record_execution" then some r else none
  | _ => none

/-- The records that were handed over to be kept, in order. -/
def Entry.records (log : List Entry) : List Execution := log.filterMap fun n => n.call.record?

theorem Entry.records_append (log log' : List Entry) :
    records (log ++ log') = records log ++ records log' := List.filterMap_append

theorem Call.record?_of_touches {area : Key → Prop} (harea : ∀ id, ¬area (.executionsRule id))
    (c : Call) (h : c.Touches area) : c.record? = none := by
  cases c with
  | enter o argument subject => cases subject with
    | record r => exact absurd h (harea r.ruleId)
    | _ => rfl
  | _ => rfl

/-- A program that keeps away from the history of runs hands over no record. -/
theorem Entry.records_of_touches {α : Type} {area : Key → Prop} {p : Program α} {log : List Entry}
    {result : Except Failure α} (hp : p.Within (Call.Touches area))
    (harea : ∀ id, ¬area (.executionsRule id)) (h : p.Ends log result) : records log = [] := by
  refine List.filterMap_eq_nil_iff.mpr fun n hn => ?_
  exact Call.record?_of_touches harea n.call (h.within hp n hn)

/-! ## Records of actions -/

/-- The entry of an action in a record: a result or an error, and not both. -/
structure Tells (a : Action) (o : ActionOutcome) : Prop where
  type : o.type = a.type
  parameters : o.parameters = a.parameters
  either : o.result.isSome ≠ o.error.isSome

/-- A record with one entry for each action of a rule, in order, and what they amount to. A rule
without actions cannot be built, and would be recorded as failed. -/
structure Accounts (rule : Rule) (record : Execution) : Prop where
  actions : List.Forall₂ Tells rule.actions record.actions
  success : rule.actions ≠ [] →
    (record.status = .success ↔ ∀ o ∈ record.actions, o.error = none)
  failed : record.status = .failed ↔ ∀ o ∈ record.actions, o.error ≠ none
  part : record.status = .part ↔
    (∃ o ∈ record.actions, o.error = none) ∧ ∃ o ∈ record.actions, o.error ≠ none
  silent : (∀ o ∈ record.actions, o.error = none) → record.error = none
  told : (∃ o ∈ record.actions, o.error ≠ none) → record.error = some (String.intercalate "; "
    ((record.actions.filter fun o => o.error.isSome).map fun o => o.type ++ ": " ++ o.error.getD ""))

namespace ExecutionStatus

variable {outcomes : List ActionOutcome}

theorem countP_succeeded_eq_length :
    outcomes.countP ActionOutcome.succeeded = outcomes.length ↔ ∀ o ∈ outcomes, o.error = none := by
  rw [List.countP_eq_length]
  simp only [ActionOutcome.succeeded, Option.isNone_iff_eq_none]

theorem countP_succeeded_pos :
    0 < outcomes.countP ActionOutcome.succeeded ↔ ∃ o ∈ outcomes, o.error = none := by
  rw [List.countP_pos_iff]
  simp only [ActionOutcome.succeeded, Option.isNone_iff_eq_none]

/-- A run succeeded if none of its actions failed, and there was one. -/
theorem of_eq_success : of outcomes = .success ↔ outcomes ≠ [] ∧ ∀ o ∈ outcomes, o.error = none := by
  unfold of
  dsimp only
  rw [← countP_succeeded_eq_length]
  split
  · next h => exact ⟨fun _ => h, fun _ => rfl⟩
  · next h =>
    refine ⟨fun heq => ?_, fun hall => absurd hall h⟩
    split at heq <;> cases heq

/-- A run failed if all of its actions failed. -/
theorem of_eq_failed : of outcomes = .failed ↔ ∀ o ∈ outcomes, o.error ≠ none := by
  have hnone : (∀ o ∈ outcomes, o.error ≠ none) ↔ ¬∃ o ∈ outcomes, o.error = none := by
    simp only [not_exists, not_and, ne_eq]
  unfold of
  dsimp only
  rw [hnone, ← countP_succeeded_pos]
  split
  · next h =>
    have hpos : 0 < outcomes.countP ActionOutcome.succeeded := by
      rw [h.2]
      exact List.length_pos_iff.mpr h.1
    exact ⟨nofun, fun hzero => absurd hpos hzero⟩
  · split
    · next hpos => exact ⟨nofun, fun hzero => absurd hpos hzero⟩
    · next hzero => exact ⟨fun _ => hzero, fun _ => rfl⟩

/-- Some actions of a run failed and some did not. -/
theorem of_eq_part : of outcomes = .part ↔
    (∃ o ∈ outcomes, o.error = none) ∧ ∃ o ∈ outcomes, o.error ≠ none := by
  have hsome : of outcomes = .part ↔ of outcomes ≠ .success ∧ of outcomes ≠ .failed := by
    cases of outcomes <;> simp
  rw [hsome, ne_eq, ne_eq, of_eq_success, of_eq_failed]
  constructor
  · rintro ⟨hsuccess, hfailed⟩
    have hone : ∃ o ∈ outcomes, o.error = none := by
      by_contra hnone
      exact hfailed fun o ho herror => hnone ⟨o, ho, herror⟩
    refine ⟨hone, ?_⟩
    by_contra hnone
    obtain ⟨o, ho, -⟩ := hone
    refine hsuccess ⟨List.ne_nil_of_mem ho, fun o ho => ?_⟩
    by_contra herror
    exact hnone ⟨o, ho, herror⟩
  · rintro ⟨⟨o, ho, hok⟩, o', ho', herror⟩
    exact ⟨fun hall => herror (hall.2 o' ho'), fun hall => hall o ho hok⟩

end ExecutionStatus

namespace Engine

/-! ## What went wrong -/

/-- The words for the actions that failed, in order. -/
theorem errors_eq (outcomes : List ActionOutcome) :
    (outcomes.filterMap fun o => o.error.map fun error => o.type ++ ": " ++ error)
      = (outcomes.filter fun o => o.error.isSome).map
        fun o => o.type ++ ": " ++ o.error.getD "" := by
  induction outcomes with
  | nil => rfl
  | cons o rest ih =>
    cases herror : o.error with
    | none => simpa [herror] using ih
    | some error => simpa [herror] using ih

theorem errorText?_eq_none {outcomes : List ActionOutcome} (h : ∀ o ∈ outcomes, o.error = none) :
    errorText? outcomes = none := by
  have hnil : (outcomes.filter fun o => o.error.isSome) = [] := by
    refine List.filter_eq_nil_iff.mpr fun o ho => ?_
    rw [h o ho]
    exact Bool.false_ne_true
  unfold errorText?
  rw [errors_eq, hnil]
  rfl

theorem errorText?_eq_some {outcomes : List ActionOutcome} (h : ∃ o ∈ outcomes, o.error ≠ none) :
    errorText? outcomes = some (String.intercalate "; " ((outcomes.filter fun o =>
      o.error.isSome).map fun o => o.type ++ ": " ++ o.error.getD "")) := by
  obtain ⟨o, ho, herror⟩ := h
  have hmem : o ∈ outcomes.filter fun o => o.error.isSome :=
    List.mem_filter.mpr ⟨ho, Option.isSome_iff_ne_none.mpr herror⟩
  have hne : ((outcomes.filter fun o => o.error.isSome).map
      fun o => o.type ++ ": " ++ o.error.getD "") ≠ [] :=
    List.ne_nil_of_mem (List.mem_map_of_mem hmem)
  unfold errorText?
  rw [errors_eq]
  exact if_neg fun hempty => hne (List.isEmpty_iff.mp hempty)

end Engine

/-- A record of the entries of all actions accounts for their rule. -/
theorem Accounts.of_tells {rule : Rule} {record : Execution}
    (hactions : List.Forall₂ Tells rule.actions record.actions)
    (hstatus : record.status = .of record.actions)
    (herror : record.error = Engine.errorText? record.actions) : Accounts rule record where
  actions := hactions
  success := by
    intro hne
    have hne' : record.actions ≠ [] := by
      intro hnil
      rw [hnil] at hactions
      exact hne (List.forall₂_nil_right_iff.mp hactions)
    rw [hstatus, ExecutionStatus.of_eq_success]
    exact and_iff_right hne'
  failed := by rw [hstatus, ExecutionStatus.of_eq_failed]
  part := by rw [hstatus, ExecutionStatus.of_eq_part]
  silent h := herror.trans (Engine.errorText?_eq_none h)
  told h := herror.trans (Engine.errorText?_eq_some h)

namespace Engine

variable {e : Engine} {rule : Rule} {x : Occurrence} {once : Bool} {log : List Entry}

/-! ## One rule -/

theorem succeeds_outcomeOf (a : Action) (result : Except Failure Fields) :
    (outcomeOf a result).Succeeds (Tells a) := by
  refine .ask fun now => ?_
  cases result with
  | ok fields => exact .done ⟨rfl, rfl, Bool.false_ne_true.symm⟩
  | error f => exact .done ⟨rfl, rfl, Bool.false_ne_true⟩

/-- Whatever fails, each action gets its entry, in order. -/
theorem succeeds_runActionsFrom (rule : Rule) (x : Occurrence) (context : Fields)
    (actions : List Action) :
    (e.runActionsFrom rule x context actions).Succeeds (List.Forall₂ Tells actions) := by
  induction actions generalizing context with
  | nil => exact .done .nil
  | cons a rest ih =>
    refine .after_attempt fun result => .bind (.call _) fun _ _ => ?_
    refine .bind (succeeds_outcomeOf a result) fun o ho => ?_
    exact .bind (ih _) fun outcomes houtcomes => .done (.cons ho houtcomes)

/-- The entries of the actions of a rule are all there, if its actions were entered. -/
theorem yields_runActions (rule : Rule) (x : Occurrence) :
    (e.runActions rule x).Yields (List.Forall₂ Tells rule.actions) :=
  .guarded (succeeds_runActionsFrom rule x x.context rule.actions).yields

/-- Actions hand over no record. -/
theorem records_runActions {result : Except Failure (List ActionOutcome)}
    (h : (e.runActions rule x).Ends log result) : Entry.records log = [] := by
  rcases Ends.of_guarded h with ⟨message, rfl, -⟩ | ⟨rest, rfl, hrest⟩
  · rfl
  · show Entry.records rest = []
    exact Entry.records_of_touches (works_runActionsFrom rule x x.context rule.actions)
      (fun _ => id) hrest

theorem succeeds_recordOf (rule : Rule) (x : Occurrence) (actions : List ActionOutcome)
    (status : ExecutionStatus) (error : Option String) :
    (recordOf rule x actions status error).Succeeds fun record =>
      record.actions = actions ∧ record.status = status ∧ record.error = error :=
  .bind (.call _) fun _ _ => .bind (.call _) fun _ _ => .done ⟨rfl, rfl, rfl⟩

theorem records_recordOf {actions : List ActionOutcome} {status : ExecutionStatus}
    {error : Option String} {result : Except Failure Execution}
    (h : (recordOf rule x actions status error).Ends log result) : Entry.records log = [] := by
  obtain ⟨n, rest, rfl, now, rest', rfl, rfl, -⟩ := h
  rfl

/-- What keeps a record hands over no other. -/
theorem records_keep {record : Execution} {result : Except Failure Unit}
    (h : (e.keep record).Ends log result) : ∀ r ∈ Entry.records log, r = record := by
  have hwithin : (e.keep record).Within fun c => ∀ r ∈ c.record?, r = record := by
    have hnone : ∀ c : Call, c.record? = none → ∀ r ∈ c.record?, r = record := by
      intro c hc r hr
      rw [hc] at hr
      cases hr
    have hpush : ∀ key cell limit, (Rules.pushBounded key cell limit).Within
        fun c => ∀ r ∈ c.record?, r = record :=
      fun key cell limit => .bind (.store (hnone _ rfl)) fun _ => .store (hnone _ rfl)
    have hcount := (Rules.touches_countRun record.ruleId record.executedAt).mono fun c hc =>
      hnone c (Call.record?_of_touches (fun _ => nofun) c hc)
    refine .guard (hnone _ rfl) (.bind (.guardFor ?_ (.bind (hpush _ _ _) fun _ => hpush _ _ _))
      fun _ => .bind hcount fun _ => .call (hnone _ rfl))
    intro r hr
    exact (Option.some.inj hr).symm
  intro r hr
  obtain ⟨n, hn, hr⟩ := List.mem_filterMap.mp hr
  exact h.within hwithin n hn r hr

/-- The record of a rule whose actions were run accounts for it. -/
theorem accounts_of_act {result : Except Failure RuleOutcome} (h : (e.act rule x).Ends log result) :
    ∀ r ∈ Entry.records log, Accounts rule r := by
  rcases Ends.of_bind h with ⟨f, hfail, -⟩ | ⟨before, after, outcomes, rfl, houtcomes, h⟩
  · rw [records_runActions hfail]
    exact fun r hr => absurd hr List.not_mem_nil
  · obtain ⟨before', after', record, rfl, hrecord, ⟨hactions, hstatus, herror⟩, h⟩ :=
      (succeeds_recordOf rule x outcomes _ _).of_bind h
    -- the record is built from the entries of the actions before it is handed over
    have haccounts : Accounts rule record := by
      refine .of_tells ?_ ?_ ?_
      · rw [hactions]
        exact yields_runActions rule x before outcomes houtcomes
      · rw [hstatus, hactions]
      · rw [herror, hactions]
    have hkept : ∀ r ∈ Entry.records after', r = record := by
      rcases Ends.of_bind h with ⟨f, hkeep, -⟩ | ⟨before'', after'', _, rfl, hkeep, rfl, -⟩
      · exact records_keep hkeep
      · rw [List.append_nil]
        exact records_keep hkeep
    rw [Entry.records_append, Entry.records_append, records_runActions houtcomes,
      records_recordOf hrecord]
    intro r hr
    rw [hkept r hr]
    exact haccounts

/-- The conditions of a rule were tried for a trigger, and they hold. -/
def Matched (rule : Rule) (x : Occurrence) (log : List Entry) : Prop :=
  rule.matches? x = .ok true
    ∧ ⟨.enter ⟨"evaluator", "evaluate_conditions"⟩ none (.run rule x), none⟩ ∈ log

theorem touches_mayAct (rule : Rule) (x : Occurrence) (once : Bool) :
    (e.mayAct rule x once).Within (Call.Touches (· = .executionDedup (x.dayKey rule))) := by
  unfold mayAct
  split
  · exact .guard trivial (.touches (.write rfl rfl))
  · exact .done true

/-- Whatever fails while a rule is tried, a record handed over after a match accounts for it. -/
theorem accounts_of_execute {result : Except Failure RuleOutcome}
    (h : (e.execute rule x once).Ends log result) (hm : Matched rule x log) :
    ∀ r ∈ Entry.records log, Accounts rule r := by
  rcases Ends.of_guarded h with ⟨message, rfl, -⟩ | ⟨rest, rfl, hbody⟩
  · exact fun r hr => absurd hr List.not_mem_nil
  obtain ⟨before, after, matched?, rfl, hevaluate, htried⟩ := Ends.of_bind_attempt hbody
  rcases Ends.of_guarded hevaluate with ⟨message, rfl, rfl⟩ | ⟨rest, rfl, hrest⟩
  -- the evaluator was out of reach, and what follows does not ask it again
  · exfalso
    have hmem := hm.2
    simp only [List.mem_cons, List.singleton_append] at hmem
    rcases hmem with heq | heq | hmem
    · exact absurd (Call.enter.inj (congrArg Entry.call heq)).1 (by decide)
    · cases heq
    · exact htried.within (files_recordUntried rule x _) _ hmem
  · obtain ⟨rfl, rfl⟩ := Ends.of_ofExcept hrest
    rw [hm.1] at htried
    obtain ⟨_, rest, rfl, hrun⟩ := Ends.of_call htried
    show ∀ r ∈ Entry.records rest, Accounts rule r
    have hmay : ∀ {log result}, (e.mayAct rule x once).Ends log result → Entry.records log = [] :=
      fun hends => Entry.records_of_touches (touches_mayAct rule x once) (fun _ => nofun) hends
    rcases Ends.of_bind hrun with ⟨f, hfail, -⟩ | ⟨before, after, may, rfl, hfree, hrest⟩
    · rw [hmay hfail]
      exact fun r hr => absurd hr List.not_mem_nil
    · rw [Entry.records_append, hmay hfree]
      cases may with
      | true => exact accounts_of_act hrest
      | false =>
        obtain ⟨_, rest, rfl, rfl, -⟩ := Ends.of_call hrest
        exact fun r hr => absurd hr List.not_mem_nil

/-- The outcome of a rule carries its id. -/
theorem yields_execute (rule : Rule) (x : Occurrence) (once : Bool) :
    (e.execute rule x once).Yields fun o => o.ruleId = rule.id := by
  refine .guarded (.after fun matched? => ?_)
  cases matched? with
  | error f => exact .after fun record => .after fun _ => .done rfl
  | ok matched =>
    refine .after fun _ => ?_
    split
    · exact .done rfl
    · refine .after fun may => ?_
      cases may with
      | true => exact .after fun outcomes => .after fun record => .after fun _ => .done rfl
      | false => exact .after fun _ => .done rfl

/-- A rule that was tried, with its outcome and its part of a log. -/
structure Handled (e : Engine) (x : Occurrence) (once : Bool) (rule : Rule)
    (run : RuleOutcome × List Entry) : Prop where
  ends : (e.executeSafely x once rule).Ends run.2 (.ok run.1)
  ruleId : run.1.ruleId = rule.id
  records : Matched rule x run.2 → ∀ r ∈ Entry.records run.2, Accounts rule r

theorem succeeds_executeSafely (rule : Rule) (x : Occurrence) (once : Bool) :
    (e.executeSafely x once rule).Succeeds fun _ => True := by
  refine .after_attempt fun outcome? => ?_
  cases outcome? with
  | ok outcome => exact .done trivial
  | error f => exact .done trivial

theorem handled_of_ends {outcome : RuleOutcome}
    (h : (e.executeSafely x once rule).Ends log (.ok outcome)) :
    Handled e x once rule (outcome, log) := by
  obtain ⟨before, after, outcome?, rfl, hexecute, hrest⟩ := Ends.of_bind_attempt h
  cases outcome? with
  | ok outcome' =>
    obtain ⟨rfl, heq⟩ := hrest
    cases heq
    refine ⟨h, yields_execute rule x once before outcome hexecute, ?_⟩
    rw [List.append_nil]
    exact accounts_of_execute hexecute
  | error f =>
    obtain ⟨rfl, heq⟩ := hrest
    cases heq
    refine ⟨h, rfl, ?_⟩
    rw [List.append_nil]
    exact accounts_of_execute hexecute

/-! ## All rules -/

/-- The engine itself is not out of reach: whatever else fails, its operations on a trigger are let
in. -/
def Entered (log : List Entry) : Prop :=
  ∀ name ∈ ["process", "run_rules"], ∀ message : String,
    ⟨.enter (operation name) none .nothing, some message⟩ ∉ log

/-- A run in a world enters the engine where no outage concerns it. -/
theorem entered_trace {α : Type} (p : Program α) {w : World}
    (hw : ∀ y ∈ w.outages, y.operation.part ≠ "orchestrator") : Entered (p.trace w) := by
  intro name _ message hmem
  have hfound := reply_of_mem_trace hmem
  cases hy : w.outages.find? fun y => y.concerns (operation name) none with
  | none =>
    rw [hy] at hfound
    cases hfound
  | some y =>
    have hconcerns := List.find?_some hy
    unfold Outage.concerns at hconcerns
    have hoperation : y.operation = operation name :=
      beq_iff_eq.mp (Bool.and_elim_left hconcerns)
    exact hw y (List.mem_of_find?_eq_some hy) (congrArg Operation.part hoperation)

/-- The rules that are active and react to the trigger are handled, in order, with one outcome each,
and no others are. -/
def HandlesAll (e : Engine) (x : Occurrence) (once : Bool) (rules : List Rule) (log : List Entry)
    (result : Except Failure TriggerOutcome) : Prop :=
  ∃ runs : List (RuleOutcome × List Entry),
    List.Forall₂ (Handled e x once)
      (rules.filter fun r => r.isActive && decide (r.trigger = x.event)) runs
    ∧ result = .ok { trigger := x.event, taskId := x.task.id, outcomes := runs.map Prod.fst }
    ∧ log = ⟨.enter (operation "run_rules") none .nothing, none⟩ :: runs.flatMap Prod.snd

/-- Rules are handled to the last, whatever fails. -/
theorem handlesAll_of_ends {rules : List Rule} {result : Except Failure TriggerOutcome}
    (h : (e.runAll rules x once).Ends log result) (hentered : Entered log) :
    HandlesAll e x once rules log result := by
  rcases Ends.of_guarded h with ⟨message, rfl, -⟩ | ⟨rest, rfl, hbody⟩
  · exact absurd List.mem_cons_self (hentered "run_rules" (by decide) message)
  have hall : ∀ rule ∈ candidates rules x, (e.executeSafely x once rule).Succeeds fun _ => True :=
    fun rule _ => succeeds_executeSafely rule x once
  obtain ⟨before, after, outcomes, rfl, heach, -, rfl, rfl⟩ := (Succeeds.each hall).of_bind hbody
  obtain ⟨runs, rfl, rfl, hruns⟩ := Succeeds.of_each hall heach
  refine ⟨runs, hruns.imp fun rule run hrun => handled_of_ends hrun, rfl, ?_⟩
  rw [List.append_nil]

end Engine

namespace Rules

/-- A stored rule that can be read has actions. -/
theorem yields_get (id : String) :
    (get id).Yields fun rule? => ∀ rule ∈ rule?, rule.actions ≠ [] := by
  refine .guarded (.after fun cells => ?_)
  split
  · exact .done fun rule hrule => absurd hrule (Option.not_mem_none rule)
  · refine .after fun s => ?_
    refine .bind (Q := fun rule => rule.actions ≠ []) ?_ fun rule hrule => ?_
    · exact .ofChecked fun rule hcheck => Rule.actions_ne_of_check hcheck
    · refine .done fun rule' hrule' => ?_
      cases hrule'
      exact hrule

theorem yields_load (ids : List String) :
    (load ids).Yields fun rules => ∀ rule ∈ rules, rule.actions ≠ [] := by
  refine .guarded (.bind (.each fun id _ => yields_get id) fun rules? hrules => ?_)
  refine .ofExcept fun rules hsorted rule hrule => ?_
  have hmem : rule ∈ rules?.filterMap id := by
    unfold oldestFirst at hsorted
    split at hsorted
    · cases hsorted
      exact (List.mergeSort_perm _ _).mem_iff.mp hrule
    · cases hsorted
  obtain ⟨rule?, hrule?, rfl⟩ := List.mem_filterMap.mp hmem
  exact hrules _ hrule? rule rfl

/-- The rules that are listed for a trigger have actions. -/
theorem yields_active (userId : String) (trigger : Trigger) :
    (active userId trigger).Yields fun rules => ∀ rule ∈ rules, rule.actions ≠ [] := by
  refine .guarded (.after fun ids => .bind (yields_load ids) fun rules hrules => .done ?_)
  exact fun rule hrule => hrules rule (List.mem_filter.mp hrule).1

end Rules

namespace Engine

variable {e : Engine} {x : Occurrence} {once : Bool} {log : List Entry}

/-- What comes of a trigger: all rules that were loaded are handled, or the failure to load them is
told. -/
def Processes (e : Engine) (x : Occurrence) (once : Bool) (loaded : Except Failure (List Rule))
    (log : List Entry) (result : Except Failure TriggerOutcome) : Prop :=
  match loaded with
  | .ok rules => (∀ rule ∈ rules, rule.actions ≠ []) ∧ HandlesAll e x once rules log result
  | .error f => log = [] ∧ result = .ok
    { trigger := x.event, taskId := x.task.id, outcomes := [],
      error := some ("Failed to load rules: " ++ f.message) }

theorem processes_of_ends {result : Except Failure TriggerOutcome}
    (h : (e.process x once).Ends log result) (hentered : Entered log) :
    ∃ loading rest loaded, log = ⟨.enter (operation "process") none .nothing, none⟩
        :: ⟨.count (.triggerReceived x.event once), ()⟩ :: (loading ++ rest)
      ∧ (Rules.active x.task.userId x.event).Ends loading loaded
      ∧ Entry.records loading = [] ∧ Processes e x once loaded rest result := by
  rcases Ends.of_guarded h with ⟨message, rfl, -⟩ | ⟨rest, rfl, hbody⟩
  · exact absurd List.mem_cons_self (hentered "process" (by decide) message)
  obtain ⟨_, rest, rfl, hcounted⟩ := Ends.of_call hbody
  obtain ⟨loading, rest, loaded, rfl, hloading, hrest⟩ := Ends.of_bind_attempt hcounted
  have hnone : Entry.records loading = [] :=
    Entry.records_of_touches (Rules.reads_active _ _) (fun _ => id) hloading
  refine ⟨loading, rest, loaded, rfl, hloading, hnone, ?_⟩
  cases loaded with
  | error f => exact hrest
  | ok rules =>
    refine ⟨Rules.yields_active _ _ loading rules hloading, handlesAll_of_ends hrest ?_⟩
    intro name hname message hmem
    refine hentered name hname message ?_
    exact List.mem_cons_of_mem _ (List.mem_cons_of_mem _ (List.mem_append_right _ hmem))

/-- Whatever is out of reach while the rules on a trigger are tried, each rule that is active and
reacts to it has one outcome, in order, and every record that is handed over after a match accounts
for all actions of its rule; where the rules cannot be loaded, there is no outcome, and an error. -/
theorem accounting_complete (e : Engine) (x : Occurrence) (once : Bool) :
    (∀ rules log result, (e.runAll rules x once).Ends log result → Entered log →
      HandlesAll e x once rules log result)
    ∧ ∀ log result, (e.process x once).Ends log result → Entered log →
      ∃ loading rest loaded, log = ⟨.enter (operation "process") none .nothing, none⟩
          :: ⟨.count (.triggerReceived x.event once), ()⟩ :: (loading ++ rest)
        ∧ (Rules.active x.task.userId x.event).Ends loading loaded
        ∧ Entry.records loading = [] ∧ Processes e x once loaded rest result :=
  ⟨fun _ _ _ => handlesAll_of_ends, fun _ _ => processes_of_ends⟩

/-- A rule on overdue tasks with an action that nobody knows, and one that logs an activity. -/
def overdueRule : Rule where
  id := "rule_1"
  userId := "user_1"
  name := "Log"
  description := ""
  trigger := .taskOverdue
  conditions := []
  actions := [⟨"unknown", []⟩, ⟨"log_activity", [("activity_type", .str "note")]⟩]
  isActive := true
  executionCount := 0
  lastExecuted := none
  createdAt := Moment.ofInstant 0
  updatedAt := Moment.ofInstant 0

/-- A task that is overdue. -/
def overdueTask : Occurrence where
  event := .taskOverdue
  task := {
    id := "task:1"
    userId := "user_1"
    clientId := none
    title := "Call"
    description := none
    status := .pending
    priority := .low
    tag := none
    dueDate := none
    parentTaskId := none
    estimatedHours := none
    actualHours := 0
    progress := 0
    aiGenerated := false
    aiConfidence := none
    assigneeIds := []
    createdAt := Moment.ofInstant 0
    updatedAt := Moment.ofInstant 0
    extra := [] }
  previousTask := none
  timeEntry := none
  metadata := []
  occurredAt := Moment.ofInstant 0

/-- A world in which runs of rules are not counted and rules are not listed. -/
def faultyWorld : World where
  clock := Moment.ofInstant 0
  outages := [⟨Rules.operation "increment_execution", none, "down"⟩,
    ⟨Rules.operation "list_active_rules_by_trigger", none, "down"⟩]

/-- The rule, and once more while it is not active. -/
def twoRules : List Rule := [{ overdueRule with isActive := false }, overdueRule]

/-- In this world the active one of the rules is handled and recorded as a partial success, although
its run is not counted; and where rules have to be listed first, that failure is told. -/
theorem accounting_complete_of_outages :
    (HandlesAll {} overdueTask true twoRules ((runAll {} twoRules overdueTask true).trace faultyWorld)
        ((runAll {} twoRules overdueTask true).run faultyWorld).1
      ∧ (Entry.records ((runAll {} twoRules overdueTask true).trace faultyWorld)).map
        Execution.status = [.part])
    ∧ ∃ loading rest loaded, (process {} overdueTask true).trace faultyWorld
        = ⟨.enter (operation "process") none .nothing, none⟩
          :: ⟨.count (.triggerReceived overdueTask.event true), ()⟩ :: (loading ++ rest)
      ∧ (Rules.active overdueTask.task.userId overdueTask.event).Ends loading loaded
      ∧ Entry.records loading = []
      ∧ Processes {} overdueTask true loaded rest
        ((process {} overdueTask true).run faultyWorld).1 := by
  have hentered : ∀ {α : Type} (p : Program α), Entered (p.trace faultyWorld) :=
    fun p => entered_trace p (by decide)
  refine ⟨⟨?_, by decide +kernel⟩, ?_⟩
  · have hends := (runAll {} twoRules overdueTask true).ends_trace faultyWorld
    exact (accounting_complete {} overdueTask true).1 twoRules _ _ hends (hentered _)
  · have hends := (process {} overdueTask true).ends_trace faultyWorld
    exact (accounting_complete {} overdueTask true).2 _ _ hends (hentered _)

end Engine

end TaskAutomation
