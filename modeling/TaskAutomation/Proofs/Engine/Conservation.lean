import TaskAutomation.Engine.Worker
import TaskAutomation.Proofs.Delivery.Fate
import TaskAutomation.Proofs.Engine.Ledger
import TaskAutomation.Proofs.Program.Traffic
import TaskAutomation.Proofs.Rules.Edits
import TaskAutomation.Proofs.Tasks.Edits

/-!
# Counts conserve runs

* `Job` : what may be under way: rules, triggers and trials, scans, deliveries of events, and edits of
  rules and tasks; `Job.balances` : each of them counts what it records;
* `World.counted w m` : the count of a metric; `Traffic.counted_eq` : it is the number of calls that
  counted it;
* `Account.balance_eq` : what a log counts, less what it skips and what its records add;
* `Engine.runs_conserved` : when all that was under way has ended, the counts of runs, of actions and of
  matches are those of the records.
-/

namespace TaskAutomation

open Program

/-- The count of a metric. -/
def World.counted (w : World) (m : Metric) : Nat := (w.counts.lookup m).getD 0

/-- How often a call counts a metric. -/
def Call.tally (m : Metric) : Call → Nat
  | .count m' => if m' = m then 1 else 0
  | _ => 0

/-- How often a metric is counted in a log. -/
def Entry.tallied (m : Metric) (log : List Entry) : Nat := (log.map fun n => n.call.tally m).sum

theorem Entry.tallied_cons (m : Metric) (n : Entry) (log : List Entry) :
    tallied m (n :: log) = n.call.tally m + tallied m log := rfl

theorem Entry.tallied_append (m : Metric) (log more : List Entry) :
    tallied m (log ++ more) = tallied m log + tallied m more := by
  unfold tallied
  rw [List.map_append, List.sum_append]

namespace Account

variable (a : Account)

theorem gap_eq (c : Call) : a.gap c = c.tally a.metric - (a.skips.elim 0 c.tally : Nat)
    - ((c.record?.map a.share).getD 0 : Nat) := by
  cases c with
  | count m =>
    cases hskips : a.skips with
    | none => simp [gap, Call.tally, Call.record?, hskips]
    | some m' => simp [gap, Call.tally, Call.record?, hskips]
  | _ => cases a <;> simp [gap, Call.tally, skips]

theorem shares_cons (n : Entry) (log : List Entry) : ((Entry.records (n :: log)).map a.share).sum =
    (n.call.record?.map a.share).getD 0 + ((Entry.records log).map a.share).sum := by
  unfold Entry.records
  cases hrecord : n.call.record? with
  | none => simp [hrecord]
  | some r => simp [hrecord]

/-- What a log counts, less what it skips and what its records add. -/
theorem balance_eq (log : List Entry) : a.balance log =
    Entry.tallied a.metric log - (a.skips.elim 0 fun m => Entry.tallied m log : Nat)
      - (((Entry.records log).map a.share).sum : Nat) := by
  induction log with
  | nil => cases a <;> rfl
  | cons n rest ih =>
    rw [balance_cons, ih, gap_eq, shares_cons, Entry.tallied_cons]
    cases a.skips with
    | none =>
      simp only [Option.elim_none]
      omega
    | some m =>
      simp only [Option.elim_some, Entry.tallied_cons]
      omega

end Account

/-! ## What may be under way -/

/-- What the engine, the scans, and the deliveries of events do, and edits of rules and tasks. -/
inductive Job where
  | rule (rule : Rule) (x : Occurrence) (oncePerDay : Bool)
  | rules (rules : List Rule) (x : Occurrence) (oncePerDay : Bool)
  | trigger (x : Occurrence) (oncePerDay : Bool)
  | trial (rule : Rule) (x : Occurrence)
  | handle (x : Occurrence)
  | taskCompleted (task : Task) (metadata : Fields)
  | statusChanged (task : Task) (oldStatus : Value) (previous metadata : Fields)
  | timeTracked (task : Task) (entry : TimeEntry) (metadata : Fields)
  | scanUser (userId : String) (moment : Moment)
  | scan (moment : Moment)
  | turn
  | delivery (way : Delivery.Way)
  | editRule (edit : Rules.Edit)
  | editTask (edit : Tasks.Edit)

namespace Job

/-- Its program. -/
def program (e : Engine) : Job → Program Unit
  | .rule r x oncePerDay => do let _ ← e.execute r x oncePerDay
  | .rules rs x oncePerDay => do let _ ← e.runAll rs x oncePerDay
  | .trigger x oncePerDay => do let _ ← e.process x oncePerDay
  | .trial r x => do let _ ← Engine.trial r x
  | .handle x => do let _ ← Scan.handle e x
  | .taskCompleted task metadata => do let _ ← Scan.taskCompleted e task metadata
  | .statusChanged task oldStatus previous metadata => do
    let _ ← Scan.statusChanged e task oldStatus previous metadata
  | .timeTracked task entry metadata => do let _ ← Scan.timeTracked e task entry metadata
  | .scanUser userId moment => do let _ ← Scan.user e userId moment
  | .scan moment => do let _ ← Scan.all e moment
  | .turn => do let _ ← Worker.turn e
  | .delivery way => do let _ ← way.deliver e
  | .editRule edit => edit.program
  | .editTask edit => edit.program

/-- The rules that are given have actions, as all rules do; an event comes in on a way for events; and
only the engine records runs. -/
def Allowed : Job → Prop
  | .rule r _ _ => r.actions ≠ []
  | .rules rs _ _ => ∀ r ∈ rs, r.actions ≠ []
  | .delivery way => way.isOpen
  | .editRule (.recordRun _ _) => False
  | _ => True

end Job

theorem Delivery.balances_handle (e : Engine) (x : Event) : Balances (handle e x) := by
  have hmark : Balances (Claims.mark e.settings x.id) := by
    refine .guard (.bind (.call fun a => a.gap_store _) fun isNew => ?_)
    cases isNew with
    | false => exact .done _
    | true => exact .bind (.call fun a => a.gap_store _) fun _ => .done _
  refine .bind hmark fun isNew => ?_
  cases isNew with
  | false => exact .done _
  | true => exact .bind (Scan.balances_handle e _) fun _ => .done _

theorem Delivery.Way.balances_deliver (e : Engine) {way : Way} (hopen : way.isOpen) :
    Balances (way.deliver e) := by
  have hglance : ∀ {log : List Entry} (a : Account), Glances log → a.balance log = 0 := by
    intro log a h
    refine List.sum_eq_zero fun g hg => ?_
    obtain ⟨n, hn, rfl⟩ := List.mem_map.mp hg
    rw [h n hn]
    rfl
  intro log result h hclean a
  rcases ends_deliver hopen h with ⟨-, hlog⟩ | ⟨x, before, rest, outcome, -, rfl, hbefore, hhandle, -⟩
  · exact hglance a hlog
  · rw [a.balance_append, hglance a hbefore, balances_handle e x rest outcome hhandle hclean.right a]
    rfl

theorem Rules.Edit.balances {edit : Edit} (h : (Job.editRule edit).Allowed) : Balances edit.program := by
  cases edit with
  | create rule => exact .bind (.of_discreet (discreet_create rule)) fun _ => .done _
  | update id rule => exact .bind (.of_discreet (discreet_update id rule)) fun _ => .done _
  | setActive id isActive => exact .bind (.of_discreet (discreet_setActive id isActive)) fun _ => .done _
  | delete id => exact .bind (.of_discreet (discreet_delete id)) fun _ => .done _
  | countRun id ranAt => exact .of_discreet (discreet_countRun id ranAt)
  | recordRun settings run => exact h.elim

theorem Tasks.Edit.balances (edit : Edit) : Balances edit.program :=
  .of_discreet edit.discreet_program

/-- Each job counts what it records. -/
theorem Job.balances (e : Engine) {job : Job} (h : job.Allowed) : Balances (job.program e) := by
  cases job with
  | rule rule x oncePerDay => exact .bind (Engine.balances_execute x oncePerDay h) fun _ => .done _
  | rules rules x oncePerDay => exact .bind (Engine.balances_runAll x oncePerDay h) fun _ => .done _
  | trigger x oncePerDay => exact .bind (e.balances_process x oncePerDay) fun _ => .done _
  | trial rule x => exact .bind (Engine.balances_trial rule x) fun _ => .done _
  | handle x => exact .bind (Scan.balances_handle e x) fun _ => .done _
  | taskCompleted task metadata =>
    exact .bind (Scan.balances_taskCompleted e task metadata) fun _ => .done _
  | statusChanged task oldStatus previous metadata =>
    exact .bind (Scan.balances_statusChanged e task oldStatus previous metadata) fun _ => .done _
  | timeTracked task entry metadata =>
    exact .bind (Scan.balances_timeTracked e task entry metadata) fun _ => .done _
  | scanUser userId moment => exact .bind (Scan.balances_user e userId moment) fun _ => .done _
  | scan moment => exact .bind (Scan.balances_all e moment) fun _ => .done _
  | turn =>
    refine .bind (.bind (.call fun a => a.gap_now) fun now => ?_) fun _ => .done _
    exact .bind (.attempt (Scan.balances_all e now)) fun _ => .done _
  | delivery way => exact .bind (Delivery.Way.balances_deliver e h) fun _ => .done _
  | editRule edit => exact edit.balances h
  | editTask edit => exact edit.balances

/-! ## Counts of the world -/

theorem lookup_tally (m m' : Metric) (counts : List (Metric × Nat)) :
    ((tally m counts).lookup m').getD 0 = (counts.lookup m').getD 0 + if m = m' then 1 else 0 := by
  induction counts with
  | nil =>
    unfold tally
    by_cases h : m' = m
    · simp [h]
    · simp [List.lookup_cons, beq_false_of_ne h, Ne.symm h]
  | cons entry rest ih =>
    obtain ⟨m'', n⟩ := entry
    unfold tally
    by_cases hm : m'' = m
    · subst hm
      by_cases h : m' = m''
      · simp [h]
      · simp [List.lookup_cons, beq_false_of_ne h, Ne.symm h]
    · rw [beq_false_of_ne hm, if_neg Bool.false_ne_true, List.lookup_cons, List.lookup_cons]
      by_cases h : m' = m''
      · subst h
        simp [Ne.symm hm]
      · rw [beq_false_of_ne h]
        exact ih

theorem World.counted_answer (w : World) (c : Call) (m : Metric) :
    (w.answer c).2.counted m = w.counted m + c.tally m := by
  cases c with
  | count m' => exact lookup_tally m' m w.counts
  | _ => rfl

namespace Engine

variable {e : Engine} {s s' : Traffic Job Unit}

/-- Jobs start at any time; others put nothing out of reach and count nothing. -/
def regime : Regime Job where
  starts := Job.Allowed
  others w w' := w'.outages = [] ∧ ∀ m, w'.counted m = w.counted m

/-- The records that were handed over to be kept. -/
def recordsOf (s : Traffic Job Unit) : List Execution := Entry.records (s.deeds.map Deed.entry)

/-- A metric was counted as often as calls counted it. -/
theorem counted_eq (hdeeds : s.deeds = []) (hcounts : ∀ m, s.world.counted m = 0)
    (h : Traffic.Leads (Job.program e) regime s s') (m : Metric) :
    s'.world.counted m = Entry.tallied m (s'.deeds.map Deed.entry) := by
  have hstart : s.world.counted m = Entry.tallied m (s.deeds.map Deed.entry) := by
    rw [hcounts m, hdeeds]
    rfl
  refine h.induct (p := fun s => s.world.counted m = Entry.tallied m (s.deeds.map Deed.entry)) hstart
    fun a b ha hstep => ?_
  cases hstep with
  | start hi => exact ha
  | others hw => exact (hw.2 m).trans ha
  | @call before after i c next hflights =>
    rw [List.map_append, Entry.tallied_append, ← ha]
    exact a.world.counted_answer c m

/-- When all has ended, every account balances. -/
theorem balance_settled (hflights : s.flights = []) (hdeeds : s.deeds = [])
    (hreach : s.world.outages = []) (h : Traffic.Leads (Job.program e) regime s s')
    (hsettled : s'.Settled) (a : Account) : a.balance (s'.deeds.map Deed.entry) = 0 := by
  have hsound := Traffic.sound hflights hdeeds h
  have hothers : ∀ w w', regime.others w w' → w'.outages = [] := fun _ _ hw => hw.1
  have hclear := Traffic.clear hothers hdeeds hreach h
  have hlog : ∀ i ∈ Finset.range s'.flights.length, a.balance (s'.log i) = 0 := by
    intro i hi
    have hget := List.getElem?_eq_getElem (Finset.mem_range.mp hi)
    obtain ⟨result, hend⟩ := ends_of_isOver (hsettled _ (List.mem_of_getElem? hget))
    have hends := hsound.ends hget hend
    rw [List.append_nil] at hends
    exact Job.balances e (hsound.started _ (List.mem_of_getElem? hget)) _ result hends (hclear.log i) a
  -- every call was made by one of the programs
  exact (Traffic.sum_deeds (fun n => a.gap n.call) hsound.makers).symm.trans (Finset.sum_eq_zero hlog)

/-- The metric of an account counts what the records add to it, and what was skipped. -/
theorem counted_metric (hflights : s.flights = []) (hdeeds : s.deeds = [])
    (hreach : s.world.outages = []) (hcounts : ∀ m, s.world.counted m = 0)
    (h : Traffic.Leads (Job.program e) regime s s') (hsettled : s'.Settled) (a : Account) :
    s'.world.counted a.metric =
      ((recordsOf s').map a.share).sum + a.skips.elim 0 s'.world.counted := by
  have hbalance := balance_settled hflights hdeeds hreach h hsettled a
  have hcounted := counted_eq hdeeds hcounts h
  have hskips : a.skips.elim 0 s'.world.counted =
      a.skips.elim 0 fun m => Entry.tallied m (s'.deeds.map Deed.entry) := by
    rw [show s'.world.counted = fun m => Entry.tallied m (s'.deeds.map Deed.entry) from funext hcounted]
  rw [a.balance_eq] at hbalance
  rw [hcounted, hskips, recordsOf]
  omega

theorem sum_map_ite_eq_countP {α : Type} (p : α → Bool) (l : List α) :
    (l.map fun a => if p a then 1 else 0).sum = l.countP p := by
  induction l with
  | nil => rfl
  | cons a rest ih =>
    rw [List.map_cons, List.sum_cons, ih, List.countP_cons]
    omega

/-- Counts conserve runs: whatever rules, triggers, scans, events and edits are interleaved with, once
all that was under way has ended with nothing out of reach,

* the count of runs of a trigger and status is that of the records with them;
* the count of actions of a type that succeeded, or failed, is that of their entries in all records;
* the count of matches of a trigger is that of its records with actions, and of the matches that were
  skipped. -/
theorem runs_conserved (hflights : s.flights = []) (hdeeds : s.deeds = [])
    (hreach : s.world.outages = []) (hcounts : ∀ m, s.world.counted m = 0)
    (h : Traffic.Leads (Job.program e) regime s s') (hsettled : s'.Settled) :
    (∀ trigger status, s'.world.counted (.ruleExecuted trigger status) =
        (recordsOf s').countP fun r => r.trigger == trigger && r.status == status) ∧
      (∀ type succeeded, s'.world.counted (.actionExecuted type succeeded) =
        ((recordsOf s').flatMap Execution.actions).countP fun o =>
          o.type == type && o.succeeded == succeeded) ∧
      ∀ t : Trigger, s'.world.counted (.ruleEvaluated t true) =
        ((recordsOf s').countP fun r => r.trigger == t.name && !r.actions.isEmpty)
          + s'.world.counted (.ruleDeduplicated t) := by
  have hcounted := counted_metric hflights hdeeds hreach hcounts h hsettled
  refine ⟨fun trigger status => ?_, fun type succeeded => ?_, fun t => ?_⟩
  · have hshare : (Account.runs trigger status).share =
        fun r => if r.trigger == trigger && r.status == status then 1 else 0 := by
      funext r
      simp [Account.share]
    rw [← sum_map_ite_eq_countP, ← hshare]
    exact hcounted (.runs trigger status)
  · rw [List.countP_flatMap]
    exact hcounted (.actions type succeeded)
  · have hshare : (Account.matched t).share =
        fun r => if r.trigger == t.name && !r.actions.isEmpty then 1 else 0 := by
      funext r
      simp [Account.share]
    rw [← sum_map_ite_eq_countP, ← hshare]
    exact hcounted (.matched t)

/-- A rule on overdue tasks is about to be run, once a day. -/
def runOnce : Job × Program Unit :=
  (.rule overdueRule overdueTask true, (Job.rule overdueRule overdueTask true).program {})

/-- The rule was run twice, with the calls of the two taking turns. -/
def twoRuns : Traffic Job Unit :=
  .play (List.replicate 40 [0, 1]).flatten ⟨{ clock := Moment.ofInstant 0 }, [runOnce, runOnce], []⟩

/-- Two matches are counted then: one is recorded, as a partial success with two actions, and the other
is skipped. -/
theorem runs_conserved_of_twoRuns :
    (twoRuns.world.counted (.ruleExecuted "task_overdue" .part) = 1 ∧
      ((recordsOf twoRuns).countP fun r => r.trigger == "task_overdue" && r.status == .part) = 1) ∧
    (twoRuns.world.counted (.actionExecuted "unknown" false) = 1 ∧
      ((recordsOf twoRuns).flatMap Execution.actions).countP
        (fun o => o.type == "unknown" && o.succeeded == false) = 1) ∧
    twoRuns.world.counted (.ruleEvaluated .taskOverdue true) = 2 ∧
      ((recordsOf twoRuns).countP fun r => r.trigger == "task_overdue" && !r.actions.isEmpty) = 1 ∧
      twoRuns.world.counted (.ruleDeduplicated .taskOverdue) = 1 := by
  have hallowed : (Job.rule overdueRule overdueTask true).Allowed := List.cons_ne_nil _ _
  have hstart : ∀ flights : List (Job × Program Unit), Traffic.Step (Job.program {}) regime
      ⟨{ clock := Moment.ofInstant 0 }, flights, []⟩
      ⟨{ clock := Moment.ofInstant 0 }, flights ++ [runOnce], []⟩ :=
    fun _ => .start (show regime.starts (Job.rule overdueRule overdueTask true) from hallowed)
  have hplay : Traffic.Leads (Job.program {}) regime
      ⟨{ clock := Moment.ofInstant 0 }, [runOnce, runOnce], []⟩ twoRuns := by
    unfold twoRuns
    exact Traffic.leads_play _ _
  have hleads : Traffic.Leads (Job.program {}) regime ⟨{ clock := Moment.ofInstant 0 }, [], []⟩ twoRuns :=
    .head (hstart []) (.head (hstart [runOnce]) hplay)
  have hsettled : twoRuns.Settled := by
    unfold Traffic.Settled
    decide +kernel
  obtain ⟨hruns, hactions, hmatches⟩ := runs_conserved rfl rfl rfl (fun _ => rfl) hleads hsettled
  have hrun : twoRuns.world.counted (.ruleExecuted "task_overdue" .part) = 1 := by decide +kernel
  have haction : twoRuns.world.counted (.actionExecuted "unknown" false) = 1 := by decide +kernel
  have hmatch : twoRuns.world.counted (.ruleEvaluated .taskOverdue true) = 2 := by decide +kernel
  have hskip : twoRuns.world.counted (.ruleDeduplicated .taskOverdue) = 1 := by decide +kernel
  refine ⟨⟨hrun, ?_⟩, ⟨haction, ?_⟩, hmatch, ?_, hskip⟩
  · rw [← hrun, hruns]
  · rw [← haction, hactions]
  · have hsum := hmatches .taskOverdue
    rw [hmatch, hskip, show Trigger.taskOverdue.name = "task_overdue" from rfl] at hsum
    omega

end Engine

end TaskAutomation
