import Mathlib.Algebra.BigOperators.Ring.Finset
import TaskAutomation.Proofs.Engine.Accounting

/-!
# Counts and records

* `Account` : what is counted about rules: runs by trigger and status, actions by type and outcome, and
  matches by trigger;
* `Account.metric`, `Account.skips` : the metric of an account, and that of the matches that are skipped;
  `Account.share a record` : what a record adds to it;
* `Account.balance a log` : what was counted less what was recorded and skipped;
* `Balances p` : with nothing out of reach, what the program counts balances with what it records;
* `Engine.balances_execute`, `Engine.balances_runAll`, `Engine.balances_process`, `Engine.balances_trial` :
  so it is for one rule and for all; in between, the actions of a rule are counted before its record is
  there (`Engine.balance_runActions`), and the record has them all (`Account.share_eq`).
-/

namespace TaskAutomation

open Program

/-- What is counted about rules. -/
inductive Account where
  | runs (trigger : String) (status : ExecutionStatus)
  | actions (type : String) (succeeded : Bool)
  | matched (trigger : Trigger)

namespace Account

/-- The metric that counts. -/
def metric : Account → Metric
  | .runs trigger status => .ruleExecuted trigger status
  | .actions type succeeded => .actionExecuted type succeeded
  | .matched trigger => .ruleEvaluated trigger true

/-- The metric of what is counted but not recorded. -/
def skips : Account → Option Metric
  | .matched trigger => some (.ruleDeduplicated trigger)
  | _ => none

/-- How many entries of actions are of this account. -/
def noted : Account → List ActionOutcome → Nat
  | .actions type succeeded, outcomes =>
    outcomes.countP fun o => o.type == type && o.succeeded == succeeded
  | _, _ => 0

/-- What a record adds to an account. -/
def share : Account → Execution → Nat
  | .runs trigger status, r => if r.trigger = trigger ∧ r.status = status then 1 else 0
  | .matched trigger, r => if r.trigger = trigger.name ∧ r.actions ≠ [] then 1 else 0
  | a, r => a.noted r.actions

/-- What a call counts, less what it records. -/
def gap (a : Account) : Call → Int
  | .count m => (if m = a.metric then 1 else 0) - if some m = a.skips then 1 else 0
  | c => -((c.record?.map a.share).getD 0 : Nat)

/-- What is counted in a log, less what is recorded. -/
def balance (a : Account) (log : List Entry) : Int := (log.map fun n => a.gap n.call).sum

variable (a : Account)

@[simp] theorem balance_nil : a.balance [] = 0 := rfl

@[simp] theorem balance_cons (n : Entry) (log : List Entry) :
    a.balance (n :: log) = a.gap n.call + a.balance log := by
  simp [balance]

@[simp] theorem balance_append (log more : List Entry) :
    a.balance (log ++ more) = a.balance log + a.balance more := by
  simp [balance]

@[simp] theorem gap_store (c : Command) : a.gap (.store c) = 0 := rfl

@[simp] theorem gap_now : a.gap .now = 0 := rfl

@[simp] theorem gap_fresh (c : Counter) : a.gap (.fresh c) = 0 := rfl

@[simp] theorem gap_enter (o : Operation) (argument : Option Value) :
    a.gap (.enter o argument .nothing) = 0 := rfl

@[simp] theorem gap_enter_run (o : Operation) (argument : Option Value) (rule : Rule) (x : Occurrence) :
    a.gap (.enter o argument (.run rule x)) = 0 := rfl

theorem gap_record (argument : Option Value) (r : Execution) :
    a.gap (.enter (Rules.operation "record_execution") argument (.record r)) = -(a.share r : Int) := rfl

theorem gap_ruleExecuted (trigger : String) (status : ExecutionStatus) :
    a.gap (.count (.ruleExecuted trigger status)) =
      if .ruleExecuted trigger status = a.metric then 1 else 0 := by
  cases a <;> simp [gap, skips]

theorem gap_actionExecuted (o : ActionOutcome) (outcomes : List ActionOutcome) :
    a.gap (.count (.actionExecuted o.type o.succeeded)) + a.noted outcomes = a.noted (o :: outcomes) := by
  cases a with
  | runs trigger status => rfl
  | matched trigger => rfl
  | actions type succeeded =>
    simp only [gap, skips, metric, noted, List.countP_cons, Metric.actionExecuted.injEq, reduceCtorEq,
      if_false, Bool.and_eq_true, beq_iff_eq]
    split <;> omega

theorem gap_matched (t : Trigger) :
    a.gap (.count (.ruleEvaluated t true)) = if .ruleEvaluated t true = a.metric then 1 else 0 := by
  cases a <;> simp [gap, skips]

theorem gap_unmatched (t : Trigger) : a.gap (.count (.ruleEvaluated t false)) = 0 := by
  cases a <;> simp [gap, metric, skips]

theorem gap_skipped (t : Trigger) :
    a.gap (.count (.ruleDeduplicated t)) = -(if .ruleEvaluated t true = a.metric then 1 else 0) := by
  cases a <;> simp [gap, metric, skips]

theorem gap_of_discreet {area : Key → Prop} {c : Call} (h : c.Discreet area) : a.gap c = 0 := by
  cases c with
  | enter o argument subject => cases subject with
    | nothing => rfl
    | _ => exact h.elim
  | count m => cases m with
    | notification delivered => cases a <;> rfl
    | _ => exact h.elim
  | _ => rfl

theorem balance_of_discreet {α : Type} {area : Key → Prop} {p : Program α}
    (hp : p.Within (Call.Discreet area)) {log : List Entry} {result : Except Failure α}
    (h : p.Ends log result) : a.balance log = 0 := by
  refine List.sum_eq_zero fun g hg => ?_
  obtain ⟨n, hn, rfl⟩ := List.mem_map.mp hg
  exact a.gap_of_discreet (h.within hp n hn)

/-- A record has a share in its run, in its actions, and in the match that it came from. -/
theorem share_eq {r : Execution} {t : Trigger} (ht : r.trigger = t.name) :
    (a.share r : Int) = (if .ruleExecuted r.trigger r.status = a.metric then 1 else 0)
      + a.noted r.actions + if r.actions ≠ [] ∧ .ruleEvaluated t true = a.metric then 1 else 0 := by
  cases a with
  | runs trigger status =>
    simp only [share, noted, metric, Metric.ruleExecuted.injEq, reduceCtorEq, and_false, if_false]
    split <;> rfl
  | actions type succeeded => simp [share, metric]
  | matched trigger =>
    have hname : r.trigger = trigger.name ↔ t = trigger := by
      rw [ht]
      exact ⟨Trigger.name_injective, congrArg Trigger.name⟩
    by_cases htrigger : t = trigger
    · by_cases hactions : r.actions = [] <;> simp [share, noted, metric, hname, htrigger, hactions]
    · simp [share, noted, metric, hname, htrigger]

end Account

/-- With nothing out of reach, what the program counts balances with what it records. -/
def Balances {α : Type} (p : Program α) : Prop :=
  ∀ log result, p.Ends log result → Clean log → ∀ a : Account, a.balance log = 0

namespace Balances

variable {α β : Type}

theorem of_discreet {area : Key → Prop} {p : Program α} (h : p.Within (Call.Discreet area)) :
    Balances p := fun _ _ hends _ a => a.balance_of_discreet h hends

theorem done (b : α) : Balances (.done b) := by
  rintro log result ⟨rfl, -⟩ - a
  exact a.balance_nil

theorem fail (f : Failure) : Balances (.fail f : Program α) := by
  rintro log result ⟨rfl, -⟩ - a
  exact a.balance_nil

theorem ofExcept (r : Except Failure α) : Balances (Program.ofExcept r) := by
  cases r with
  | ok b => exact .done b
  | error f => exact .fail f

/-- What follows may rely on the results of what goes before. -/
theorem bind_of {p : Program α} {g : α → Program β} {Q : α → Prop} (hp : Balances p) (hQ : p.Yields Q)
    (hg : ∀ b, Q b → Balances (g b)) : Balances (p >>= g) := by
  intro log result h hclean a
  rcases Ends.of_bind h with ⟨f, hfail, -⟩ | ⟨before, after, b, rfl, hbefore, hafter⟩
  · exact hp log _ hfail hclean a
  · rw [a.balance_append, hp before _ hbefore hclean.left a,
      hg b (hQ _ _ hbefore) after result hafter hclean.right a, add_zero]

theorem bind {p : Program α} {g : α → Program β} (hp : Balances p) (hg : ∀ b, Balances (g b)) :
    Balances (p >>= g) := hp.bind_of (Q := fun _ => True) (fun _ _ _ => trivial) fun b _ => hg b

theorem attempt {p : Program α} (hp : Balances p) : Balances p.attempt := by
  intro log result h hclean a
  obtain ⟨outcome, hends, -⟩ := Ends.of_attempt h
  exact hp log outcome hends hclean a

theorem call {c : Call} (h : ∀ a : Account, a.gap c = 0) : Balances (Program.call c) := by
  rintro log result ⟨r, rest, rfl, rfl, -⟩ - a
  rw [a.balance_cons, a.balance_nil, h a, add_zero]

theorem each {f : α → Program β} {items : List α} (h : ∀ b ∈ items, Balances (f b)) :
    Balances (Program.each f items) := by
  induction items with
  | nil => exact .done _
  | cons b rest ih =>
    refine .bind (h b List.mem_cons_self) fun c => ?_
    exact .bind (ih fun b' hb' => h b' (List.mem_cons_of_mem b hb')) fun cs => .done _

theorem guarded {o : Operation} {argument : Option Value} {subject : Subject} {body : Program α}
    (ho : ∀ a : Account, a.gap (.enter o argument subject) = 0) (h : Balances body) :
    Balances (o.guarded argument subject body) := by
  intro log result hends hclean a
  obtain ⟨rest, rfl, hrest, hbody⟩ := hclean.of_guarded hends
  rw [a.balance_cons, ho a, h rest result hbody hrest a, add_zero]

theorem guard {o : Operation} {argument : Option Value} {body : Program α} (h : Balances body) :
    Balances (o.guard argument body) := .guarded (fun a => a.gap_enter o argument) h

end Balances

namespace Engine

variable {e : Engine} {rule : Rule} {x : Occurrence} {log : List Entry}

/-! ## Actions and records -/

/-- The entry of an action tells its type and whether it failed. -/
theorem ends_outcomeOf {act : Action} {tried : Except Failure Fields}
    {result : Except Failure ActionOutcome} (h : (outcomeOf act tried).Ends log result) :
    ∃ o now, log = [⟨.now, now⟩] ∧ result = .ok o ∧ o.type = act.type ∧ o.succeeded = tried.toBool := by
  cases tried with
  | ok fields =>
    obtain ⟨now, rest, rfl, rfl, rfl⟩ := h
    exact ⟨_, now, rfl, rfl, rfl, rfl⟩
  | error f =>
    obtain ⟨now, rest, rfl, rfl, rfl⟩ := h
    exact ⟨_, now, rfl, rfl, rfl, rfl⟩

/-- Each action is counted as it is noted. -/
theorem balance_runActionsFrom {context : Fields} {actions : List Action}
    {result : Except Failure (List ActionOutcome)}
    (h : (e.runActionsFrom rule x context actions).Ends log result) :
    ∃ outcomes, result = .ok outcomes ∧ outcomes.length = actions.length ∧
      ∀ a : Account, a.balance log = a.noted outcomes := by
  induction actions generalizing context log result with
  | nil =>
    obtain ⟨rfl, rfl⟩ := h
    refine ⟨[], rfl, rfl, fun a => ?_⟩
    cases a <;> rfl
  | cons act rest ih =>
    obtain ⟨before, after, tried, rfl, hact, htold⟩ := Ends.of_bind_attempt h
    obtain ⟨_, after, rfl, hnoted⟩ := Ends.of_call htold
    rcases Ends.of_bind hnoted with ⟨f, hfail, -⟩ | ⟨mid, after, o, rfl, ho, hlater⟩
    · obtain ⟨_, _, -, heq, -⟩ := ends_outcomeOf hfail
      cases heq
    obtain ⟨_, now, rfl, heq, htype, hsucceeded⟩ := ends_outcomeOf ho
    cases heq
    rcases Ends.of_bind hlater with ⟨f, hfail, -⟩ | ⟨mid, last, outcomes, rfl, hrest, rfl, rfl⟩
    · obtain ⟨_, heq, -⟩ := ih hfail
      cases heq
    obtain ⟨_, heq, hlength, hbalance⟩ := ih hrest
    cases heq
    refine ⟨o :: outcomes, rfl, congrArg Nat.succ hlength, fun a => ?_⟩
    -- what the action itself does is not about rules, so its one count stands against its entry
    have hzero := a.balance_of_discreet (e.serves_dispatch _ _ _ _ _) hact
    have hcount : a.gap (.count (.actionExecuted act.type tried.toBool)) + a.noted outcomes
        = a.noted (o :: outcomes) := by
      rw [← htype, ← hsucceeded]
      exact a.gap_actionExecuted o outcomes
    simp only [a.balance_append, a.balance_cons, a.balance_nil, hzero, a.gap_now, hbalance]
    omega

/-- A record is built from the outcomes that it is given, and changes no account. -/
theorem ends_recordOf {actions : List ActionOutcome} {status : ExecutionStatus} {error : Option String}
    {result : Except Failure Execution} (h : (recordOf rule x actions status error).Ends log result) :
    ∃ r, result = .ok r ∧ r.trigger = x.event.name ∧ r.actions = actions ∧
      ∀ a : Account, a.balance log = 0 := by
  obtain ⟨n, rest, rfl, now, rest', rfl, rfl, rfl⟩ := h
  exact ⟨_, rfl, rfl, rfl, fun a => by simp⟩

theorem ends_recordRun {s : Settings} {r : Execution} {result : Except Failure Unit}
    (hclean : Clean log) (h : (Rules.recordRun s r).Ends log result) :
    result = .ok () ∧ ∀ a : Account, a.balance log = -(a.share r : Int) := by
  obtain ⟨rest, rfl, -, ⟨⟩, _, rfl, ⟨⟩, _, rfl, ⟨⟩, _, rfl, ⟨⟩, _, rfl, rfl, rfl⟩ := hclean.of_guarded h
  refine ⟨rfl, fun a => ?_⟩
  rw [a.balance_cons, a.gap_record]
  simp

theorem ends_countRun {id : String} {ranAt : Moment} {result : Except Failure Unit}
    (hclean : Clean log) (h : (Rules.countRun id ranAt).Ends log result) :
    result = .ok () ∧ ∀ a : Account, a.balance log = 0 := by
  refine ⟨?_, fun a => a.balance_of_discreet (Rules.discreet_countRun id ranAt) h⟩
  obtain ⟨rest, rfl, -, there, rest', rfl, hcount⟩ := hclean.of_guarded h
  cases there with
  | false => exact hcount.2
  | true =>
    obtain ⟨⟨⟩, _, -, ⟨⟩, _, -, -, hresult⟩ := hcount
    exact hresult

/-- A record is kept and its run counted. -/
theorem balance_keep {r : Execution} {result : Except Failure Unit} (hclean : Clean log)
    (h : (e.keep r).Ends log result) : ∀ a : Account, a.balance log =
      (if .ruleExecuted r.trigger r.status = a.metric then 1 else 0) - (a.share r : Int) := by
  obtain ⟨rest, rfl, hrest, hkeep⟩ := hclean.of_guarded h
  rcases Ends.of_bind hkeep with ⟨f, hfail, -⟩ | ⟨before, after, _, rfl, hrecord, hlater⟩
  · cases (ends_recordRun hrest hfail).1
  rcases Ends.of_bind hlater with ⟨f, hfail, -⟩ | ⟨mid, after, _, rfl, hcount, hlast⟩
  · cases (ends_countRun hrest.right hfail).1
  obtain ⟨_, _, rfl, rfl, -⟩ := hlast
  intro a
  have hrun : a.gap (.count (.ruleExecuted r.trigger r.status)) =
      if .ruleExecuted r.trigger r.status = a.metric then 1 else 0 := a.gap_ruleExecuted _ _
  simp only [a.balance_append, a.balance_cons, a.balance_nil, a.gap_enter, hrun,
    (ends_recordRun hrest.left hrecord).2 a, (ends_countRun hrest.right.left hcount).2 a]
  omega

/-! ## Rules -/

/-- What becomes of a record that is kept, with whatever is returned then. -/
theorem balance_kept {r : Execution} {o : RuleOutcome} {result : Except Failure RuleOutcome}
    (hclean : Clean log) (h : (e.keep r >>= fun _ => pure o).Ends log result) :
    ∀ a : Account, a.balance log =
      (if .ruleExecuted r.trigger r.status = a.metric then 1 else 0) - (a.share r : Int) := by
  rcases Ends.of_bind h with ⟨f, hfail, -⟩ | ⟨before, after, _, rfl, hkeep, rfl, -⟩
  · exact balance_keep hclean hfail
  · rw [List.append_nil] at hclean ⊢
    exact balance_keep hclean hkeep

theorem ends_runActions (hactions : rule.actions ≠ []) {result : Except Failure (List ActionOutcome)}
    (hclean : Clean log) (h : (e.runActions rule x).Ends log result) :
    ∃ outcomes, result = .ok outcomes ∧ outcomes ≠ [] ∧ ∀ a : Account, a.balance log = a.noted outcomes := by
  obtain ⟨rest, rfl, -, hbody⟩ := hclean.of_guarded h
  obtain ⟨outcomes, rfl, hlength, hbalance⟩ := balance_runActionsFrom hbody
  refine ⟨outcomes, rfl, ?_, fun a => ?_⟩
  · rintro rfl
    exact hactions (List.length_eq_zero_iff.mp hlength.symm)
  · rw [a.balance_cons, a.gap_enter_run, zero_add, hbalance a]

/-- The record of a rule that matched makes up for the match. -/
theorem balance_act (hactions : rule.actions ≠ []) {result : Except Failure RuleOutcome}
    (hclean : Clean log) (h : (e.act rule x).Ends log result) (a : Account) :
    a.balance log = -(if .ruleEvaluated x.event true = a.metric then 1 else 0) := by
  rcases Ends.of_bind h with ⟨f, hfail, -⟩ | ⟨before, after, outcomes, rfl, houtcomes, hnext⟩
  · obtain ⟨_, heq, -⟩ := ends_runActions hactions hclean hfail
    cases heq
  obtain ⟨_, heq, hne, hnoted⟩ := ends_runActions hactions hclean.left houtcomes
  cases heq
  rcases Ends.of_bind hnext with ⟨f, hfail, -⟩ | ⟨mid, after, r, rfl, hrecord, hkept⟩
  · obtain ⟨_, heq, -⟩ := ends_recordOf hfail
    cases heq
  obtain ⟨_, heq, htrigger, hrecorded, hnone⟩ := ends_recordOf hrecord
  cases heq
  -- the run and its actions were counted, so of the share of the record the match is left
  rw [a.balance_append, a.balance_append, hnoted a, hnone a, balance_kept hclean.right.right hkept a,
    a.share_eq htrigger, hrecorded]
  simp only [hne, ne_eq, not_false_eq_true, true_and]
  omega

/-- The record of a rule that could not be tried is of its own run only. -/
theorem balances_recordUntried (rule : Rule) (x : Occurrence) (f : Failure) :
    Balances (e.recordUntried rule x f) := by
  intro log result h hclean a
  rcases Ends.of_bind h with ⟨f, hfail, -⟩ | ⟨before, after, r, rfl, hrecord, hkept⟩
  · obtain ⟨_, heq, -⟩ := ends_recordOf hfail
    cases heq
  obtain ⟨_, heq, htrigger, hrecorded, hnone⟩ := ends_recordOf hrecord
  cases heq
  have hnoted : a.noted [] = 0 := by cases a <;> rfl
  rw [a.balance_append, hnone a, balance_kept hclean.right hkept a, a.share_eq htrigger, hrecorded, hnoted]
  simp

theorem ends_mayAct {once : Bool} {result : Except Failure Bool} (hclean : Clean log)
    (h : (e.mayAct rule x once).Ends log result) :
    ∃ free, result = .ok free ∧ ∀ a : Account, a.balance log = 0 := by
  unfold mayAct at h
  split at h
  · obtain ⟨rest, rfl, -, free, _, rfl, rfl, rfl⟩ := hclean.of_guarded h
    exact ⟨free, rfl, fun a => by simp⟩
  · obtain ⟨rfl, rfl⟩ := h
    exact ⟨true, rfl, fun a => a.balance_nil⟩

/-- A match is recorded or skipped. -/
theorem balances_execute (x : Occurrence) (once : Bool) (hactions : rule.actions ≠ []) :
    Balances (e.execute rule x once) := by
  refine .guarded (fun a => a.gap_enter_run _ _ rule x) fun log result h hclean a => ?_
  obtain ⟨before, after, tried, rfl, htry, hnext⟩ := Ends.of_bind_attempt h
  obtain ⟨_, rfl, -, hnothing⟩ := hclean.left.of_guarded htry
  obtain ⟨rfl, rfl⟩ := Ends.of_ofExcept hnothing
  rw [a.balance_append, a.balance_cons, a.gap_enter_run, a.balance_nil, zero_add, zero_add]
  replace hclean := hclean.right
  cases hmatch : rule.matches? x with
  | error f =>
    rw [hmatch] at hnext
    exact balances_recordUntried rule x f after result hnext hclean a
  | ok matched =>
    rw [hmatch] at hnext
    obtain ⟨_, rest, rfl, hmatched⟩ := Ends.of_call hnext
    rw [a.balance_cons]
    cases matched with
    | false =>
      obtain ⟨rfl, -⟩ := hmatched
      rw [a.gap_unmatched, a.balance_nil, add_zero]
    | true =>
      -- the match is counted before it turns out whether it is recorded or skipped
      rw [a.gap_matched]
      rcases Ends.of_bind hmatched with ⟨f, hfail, -⟩ | ⟨before, after, free, rfl, hfree, hrun⟩
      · obtain ⟨_, heq, -⟩ := ends_mayAct hclean.tail hfail
        cases heq
      obtain ⟨_, heq, hnone⟩ := ends_mayAct hclean.tail.left hfree
      cases heq
      rw [a.balance_append, hnone a]
      cases free with
      | true =>
        rw [balance_act hactions hclean.tail.right hrun a]
        omega
      | false =>
        obtain ⟨_, _, rfl, rfl, -⟩ := Ends.of_call hrun
        rw [a.balance_cons, a.gap_skipped, a.balance_nil]
        omega

theorem balances_runAll {rules : List Rule} (x : Occurrence) (once : Bool)
    (hactions : ∀ rule ∈ rules, rule.actions ≠ []) : Balances (e.runAll rules x once) := by
  refine .guard (.bind (.each fun rule hrule => ?_) fun _ => .done _)
  have hrule := hactions rule (List.mem_filter.mp hrule).1
  refine .bind (.attempt (balances_execute x once hrule)) fun outcome => ?_
  cases outcome <;> exact .done _

/-- The rules of a trigger that are stored have actions, so all of them balance. -/
theorem balances_process (e : Engine) (x : Occurrence) (once : Bool) : Balances (e.process x once) := by
  refine .guard (.bind (.call fun a => ?_) fun _ => ?_)
  · cases a <;> rfl
  intro log result h hclean a
  obtain ⟨before, after, found, rfl, hactive, hnext⟩ := Ends.of_bind_attempt h
  have hdiscreet : (Rules.active x.task.userId x.event).Within (Call.Discreet Key.isRules) :=
    Rules.discreet_active _ _
  rw [a.balance_append, a.balance_of_discreet hdiscreet hactive, zero_add]
  cases found with
  | error f =>
    obtain ⟨rfl, -⟩ := hnext
    rfl
  | ok rules =>
    have hactions := Rules.yields_active _ _ before rules hactive
    exact balances_runAll x once hactions after result hnext hclean.right a

theorem balances_trial (rule : Rule) (x : Occurrence) : Balances (trial rule x) := by
  refine .guard (.bind (.call fun a => a.gap_now) fun now => ?_)
  refine .bind (.attempt (.guarded (fun a => a.gap_enter_run _ _ rule x) (.ofExcept _))) fun tried => ?_
  cases tried <;> exact .done _

end Engine

/-! ## Scans -/

namespace Scan

variable (e : Engine)

theorem balances_handle (x : Occurrence) : Balances (handle e x) := .guard (e.balances_process x false)

theorem balances_occurrence (event : Trigger) (task : Task) (previous : Option Fields)
    (entry : Option TimeEntry) (metadata : Fields) :
    Balances (occurrence event task previous entry metadata) :=
  .bind (.call fun a => a.gap_now) fun _ => .done _

theorem balances_taskCompleted (task : Task) (metadata : Fields) :
    Balances (taskCompleted e task metadata) :=
  .guard (.bind (balances_occurrence _ _ _ _ _) fun x => balances_handle e x)

theorem balances_statusChanged (task : Task) (oldStatus : Value) (previous metadata : Fields) :
    Balances (statusChanged e task oldStatus previous metadata) := by
  refine .guard (.bind (.ofExcept _) fun old => ?_)
  split
  · exact .done _
  · exact .bind (balances_occurrence _ _ _ _ _) fun x => balances_handle e x

theorem balances_timeTracked (task : Task) (entry : TimeEntry) (metadata : Fields) :
    Balances (timeTracked e task entry metadata) :=
  .guard (.bind (balances_occurrence _ _ _ _ _) fun x => balances_handle e x)

theorem balances_task (moment : Moment) (event : Trigger) (t : Task) :
    Balances (task e moment event t) := by
  refine .bind (.attempt (e.balances_process _ true)) fun outcome => ?_
  cases outcome <;> exact .done _

theorem balances_user (userId : String) (moment : Moment) : Balances (user e userId moment) := by
  refine .guard (.bind (.of_discreet (Tasks.discreet_overdue _ _ : Serves _)) fun overdue => ?_)
  refine .bind (.ofExcept _) fun stop => ?_
  refine .bind (.of_discreet (Tasks.discreet_dueWithin _ _ _ : Serves _)) fun soon => ?_
  refine .bind (.each fun t _ => balances_task e moment _ t) fun late => ?_
  exact .bind (.each fun t _ => balances_task e moment _ t) fun near => .done _

theorem balances_all (moment : Moment) : Balances (all e moment) := by
  have husers : (Rules.usersWithActive Trigger.scheduled).Within (Call.Discreet Key.isRules) :=
    Rules.discreet_usersWithActive _
  refine .guard (.bind (.of_discreet husers) fun users => ?_)
  refine .bind (.each fun userId _ => ?_) fun reports => .bind (.call fun a => ?_) fun _ => .done _
  · refine .bind (.attempt (balances_user e userId moment)) fun report => ?_
    cases report <;> exact .done _
  · cases a <;> rfl

end Scan

end TaskAutomation
