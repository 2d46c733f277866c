import TaskAutomation.Proofs.Engine.Accounting
import TaskAutomation.Proofs.Scan.DayKey
import TaskAutomation.Proofs.Scan.Once

/-!
# No run is suppressed without a reason

* `Scan.IsTrial e f` : a scan, or the execution of one rule once a day; `Scan.faultless e` : such
  programs at any moments, in any order, with nothing out of reach; others may do anything but touch
  what is kept about days;
* `Scan.Traced e s` : every day that is kept was used by a scan; `traced_step` : a step keeps it so;
* `Engine.skipReason e w rule x` : why a rule was skipped, if it was; `Engine.days_of_skipReason` : it is
  so only where its day is kept;
* `Scan.suppression_exact` : a rule is skipped only where a scan entered its actions for the same
  task, trigger and day; days differ in their texts; and a rule that does not match uses no day.
-/

namespace TaskAutomation

open Program

/-! ## Skipping -/

namespace Engine

variable {e : Engine} {w : World} {rule : Rule} {x : Occurrence}

/-- Why a rule was skipped that was tried once a day, if it was. -/
def skipReason (e : Engine) (w : World) (rule : Rule) (x : Occurrence) : Option String :=
  ((e.execute rule x true).run w).1.toOption.bind RuleOutcome.skipped

theorem run_evaluate (ho : w.outages = []) : (evaluate rule x).run w = (rule.matches? x, w) := by
  unfold evaluate
  rw [Operation.run_guardFor ho, run_ofExcept]

/-- A rule that runs its actions is not skipped. -/
theorem skipped_of_act {o : RuleOutcome} (h : ((e.act rule x).run w).1 = .ok o) :
    o.skipped = none := by
  have hyields : (e.act rule x).Yields fun o => o.skipped = none :=
    .after fun outcomes => .after fun record => .after fun _ => .done rfl
  exact hyields.run h

/-- A rule whose conditions could not be tried is not skipped. -/
theorem skipped_of_recordUntried {f : Failure} {o : RuleOutcome}
    (h : ((e.recordUntried rule x f).run w).1 = .ok o) : o.skipped = none := by
  have hyields : (e.recordUntried rule x f).Yields fun o => o.skipped = none :=
    .after fun record => .after fun _ => .done rfl
  exact hyields.run h

/-- A rule may not act only where days are claimed and its day is kept. -/
theorem days_of_mayAct {w' : World} (ho : w.outages = [])
    (h : (e.mayAct rule x true).run w = (.ok false, w')) :
    e.settings.scanDedup = true ∧ ∃ slot, w.days (x.dayKey rule) = some slot := by
  unfold mayAct at h
  split at h
  · next hdedup =>
    unfold Claims.claim at h
    rw [Operation.run_guard ho, run_store] at h
    have htaken : ((Command.claim (.executionDedup (x.dayKey rule)) (.text "1")
        e.settings.scanDedupTtl).run w.clock.instant w.store).1 = false :=
      Except.ok.inj (Prod.mk.inj h).1
    simp only [Command.run] at htaken
    split at htaken
    · next hsome =>
      unfold Store.find? Store.slot? at hsome
      cases hslot : w.store.slots.lookup (.executionDedup (x.dayKey rule)) with
      | none =>
        rw [hslot] at hsome
        cases hsome
      | some slot => exact ⟨hdedup, slot, hslot⟩
    · cases htaken
  · cases h

/-- A rule is skipped only where days are claimed and its day is kept. -/
theorem days_of_skipReason (ho : w.outages = []) {reason : String}
    (h : e.skipReason w rule x = some reason) :
    e.settings.scanDedup = true ∧ ∃ slot, w.days (x.dayKey rule) = some slot := by
  unfold skipReason at h
  cases hrun : ((e.execute rule x true).run w).1 with
  | error f =>
    rw [hrun] at h
    cases h
  | ok o =>
    rw [hrun] at h
    have hskipped : o.skipped = some reason := h
    unfold execute at hrun
    rw [Operation.run_guardFor ho] at hrun
    obtain ⟨matched?, w₁, hmatched, hrun⟩ := ok_of_bind hrun
    rw [run_attempt, run_evaluate ho] at hmatched
    cases hmatched
    cases hm : rule.matches? x with
    | error f =>
      rw [hm] at hrun
      rw [skipped_of_recordUntried hrun] at hskipped
      cases hskipped
    | ok matched =>
      rw [hm] at hrun
      obtain ⟨_, w₂, hcount, hrun⟩ := ok_of_bind hrun
      cases hcount
      split at hrun
      · cases hrun
        cases hskipped
      · obtain ⟨may, w₃, hmay, hrun⟩ := ok_of_bind hrun
        cases may with
        | true =>
          rw [skipped_of_act hrun] at hskipped
          cases hskipped
        | false =>
          exact days_of_mayAct (e := e)
            (w := { w with counts := tally (.ruleEvaluated x.event matched) w.counts }) ho hmay

/-- A rule that does not match leaves what is kept about days as it is. -/
theorem days_execute_of_unmatched {oncePerDay : Bool} (hm : rule.matches? x ≠ .ok true) :
    ((e.execute rule x oncePerDay).run w).2.days = w.days := by
  have hunmatched : (do
      count (.ruleEvaluated x.event false)
      return ({ ruleId := rule.id, matched := false } : RuleOutcome)).Within Call.Quiet :=
    quiet_of_files (.bind (.call trivial) fun _ => .done _)
  refine Within.days_run (.guardFor (quiet_enter_execute rule x) ?_) w
  refine .ask (quiet_enter_evaluate rule x) fun message? => ?_
  cases message? with
  | some message => exact quiet_of_files (files_recordUntried rule x (.unreachable message))
  | none =>
    show (attempt (ofExcept (rule.matches? x)) >>= _).Within Call.Quiet
    cases hmatches : rule.matches? x with
    | error f => exact quiet_of_files (files_recordUntried rule x f)
    | ok matched =>
      cases matched with
      | true => exact absurd hmatches hm
      | false => exact hunmatched

end Engine

/-! ## Sessions -/

namespace Scan

/-- A scan, or the execution of one rule once a day, for a trigger at its moment. -/
def IsTrial (e : Engine) (f : Flight Moment) : Prop :=
  IsScan e f ∨ ∃ rule x, x.occurredAt = f.about.inUtc ∧ f.rest = do let _ ← e.execute rule x true

theorem IsTrial.careful {e : Engine} {f : Flight Moment} (h : IsTrial e f)
    (hdedup : e.settings.scanDedup = true) : Careful e f.about.inUtc f.rest := by
  rcases h with h | ⟨rule, x, hx, h⟩
  · exact h.careful hdedup
  · rw [h]
    exact .bind (Engine.careful_execute hdedup rule hx) fun _ => .done _

/-- Rules are tried at any moments, with nothing out of reach. -/
def faultless (e : Engine) : Discipline Moment where
  starts _ f := IsTrial e f
  moves _ _ := True
  others w w' := w'.days = w.days ∧ w'.outages = []

/-- Every day that is kept was used. -/
structure Traced (e : Engine) (s : Session Moment) : Prop where
  orderly : ∀ f ∈ s.flights, Orderly e f
  reach : s.world.outages = []
  traced : ∀ key slot, s.world.days key = some slot → ∃ d ∈ s.ran ++ s.pending, d.key = key

variable {e : Engine} {s s' : Session Moment}

/-- Nothing gets out of reach in a faultless session. -/
theorem reach_step (h : s.world.outages = []) (hstep : Session.Step (faultless e) s s') :
    s'.world.outages = [] := by
  cases hstep with
  | start hf => exact h
  | call hflights hi => exact (World.answer_outages _ _).trans h
  | others hw => exact hw.2

/-- Every step of a faultless session leaves the days traced. -/
theorem traced_step (hdedup : e.settings.scanDedup = true) (h : Traced e s)
    (hstep : Session.Step (faultless e) s s') : Traced e s' := by
  obtain ⟨horderly, hcases⟩ := step_cases (d := faultless e)
    (fun _ _ hf => hf.careful hdedup) h.orderly hstep
  have hkept : (∀ d ∈ s.ran ++ s.pending, d ∈ s'.ran ++ s'.pending) → s'.world.days = s.world.days →
      ∀ key slot, s'.world.days key = some slot → ∃ d ∈ s'.ran ++ s'.pending, d.key = key := by
    intro hsub hdays key slot hslot
    rw [hdays] at hslot
    obtain ⟨d, hd, hkey⟩ := h.traced key slot hslot
    exact ⟨d, hsub d hd, hkey⟩
  rcases hcases with ⟨m, -, hturn, -, houtages⟩ | ⟨hran, hpending, hworld⟩
  · refine ⟨horderly, houtages.trans h.reach, ?_⟩
    cases hturn with
    | quiet hdays hran hpending =>
      refine hkept (fun d hd => ?_) hdays
      rwa [hran, hpending]
    -- the one turn that changes the days leaves the day that it takes pending
    | takes d hdate hfree hdays hran hpending =>
      intro key slot hslot
      by_cases hkey : key = d.key
      · refine ⟨d, List.mem_append_right _ ?_, hkey.symm⟩
        exact hpending.mem_iff.mpr List.mem_cons_self
      · rw [hdays, Function.update_of_ne hkey] at hslot
        obtain ⟨d', hd', hkey'⟩ := h.traced key slot hslot
        refine ⟨d', ?_, hkey'⟩
        rw [hran]
        rcases List.mem_append.mp hd' with hran' | hpending'
        · exact List.mem_append_left _ hran'
        · exact List.mem_append_right _ (hpending.mem_iff.mpr (List.mem_cons_of_mem d hpending'))
    | enters d hdays hran hpending =>
      refine hkept (fun d' hd' => ?_) hdays
      rw [hran, List.append_assoc]
      rcases List.mem_append.mp hd' with hran' | hpending'
      · exact List.mem_append_left _ hran'
      · exact List.mem_append_right _ (hpending.mem_iff.mp hpending')
    | refused d hout hdays hran hpending => exact absurd h.reach hout
  · have hsub : ∀ d ∈ s.ran ++ s.pending, d ∈ s'.ran ++ s'.pending := by
      rw [hran, hpending]
      exact fun d => id
    rcases hworld with hsame | ⟨hdays, houtages⟩
    · exact ⟨horderly, hsame ▸ h.reach, hkept hsub (congrArg World.days hsame)⟩
    · exact ⟨horderly, houtages, hkept hsub hdays⟩

/-- In a faultless session a rule is skipped only for a day that was used. -/
theorem mem_ran_of_skipReason (h : Traced e s) (hsettled : s.pending = [])
    (hids : ∀ d ∈ s.ran, ':' ∉ d.ruleId.toList) {rule : Rule} {x : Occurrence}
    (hid : ':' ∉ rule.id.toList) {reason : String}
    (hskip : e.skipReason s.world rule x = some reason) : x.dayRun rule ∈ s.ran := by
  obtain ⟨-, slot, hslot⟩ := Engine.days_of_skipReason h.reach hskip
  obtain ⟨d, hd, hkey⟩ := h.traced _ slot hslot
  rw [hsettled, List.append_nil] at hd
  have hday : d = x.dayRun rule := DayRun.key_injective (hids d hd) hid hkey
  exact hday ▸ hd

/-- Nothing is under way, nothing is out of reach, and no day was ever taken. -/
structure Unused (s : Session Moment) : Prop where
  flights : s.flights = []
  journal : s.journal = []
  days : ∀ key, s.world.days key = none
  reach : s.world.outages = []

theorem Unused.traced (h : Unused s) : Traced e s := by
  refine ⟨?_, h.reach, fun key slot hslot => ?_⟩
  · rw [h.flights]
    exact nofun
  · rw [h.days] at hslot
    cases hslot

/-- A rule that may run once a day is skipped only where its actions were entered before, for the
same task, trigger and day. Days of rules whose ids hold no colon have texts of their own, and a rule
that does not match, or cannot be tried, leaves all days as they are. -/
theorem suppression_exact :
    (∀ (e : Engine) (s s' : Session Moment), Unused s → Session.Leads (faultless e) s s' →
      s'.pending = [] → (∀ d ∈ s'.ran, ':' ∉ d.ruleId.toList) →
      ∀ (rule : Rule) (x : Occurrence), ':' ∉ rule.id.toList →
        e.skipReason s'.world rule x = some "Already executed today" → x.dayRun rule ∈ s'.ran)
    ∧ (∀ (rule rule' : Rule) (x x' : Occurrence), ':' ∉ rule.id.toList → ':' ∉ rule'.id.toList →
      x.dayKey rule = x'.dayKey rule' → x.dayRun rule = x'.dayRun rule')
    ∧ ∀ (e : Engine) (w : World) (rule : Rule) (x : Occurrence) (oncePerDay : Bool),
      rule.matches? x ≠ .ok true → ((e.execute rule x oncePerDay).run w).2.days = w.days := by
  refine ⟨?_, ?_, ?_⟩
  · intro e s s' hunused hleads hsettled hids rule x hid hskip
    have hreach : s'.world.outages = [] :=
      hleads.induct (p := fun t => t.world.outages = []) hunused.reach fun a b => reach_step
    obtain ⟨hdedup, -⟩ := Engine.days_of_skipReason hreach hskip
    have hend : Traced e s' :=
      hleads.induct hunused.traced fun a b ha hstep => traced_step hdedup ha hstep
    exact mem_ran_of_skipReason hend hsettled hids hid hskip
  · intro rule rule' x x' hid hid' hkey
    exact DayRun.key_injective hid hid' hkey
  · intro e w rule x oncePerDay hm
    exact Engine.days_execute_of_unmatched hm

/-- A rule is tried for an overdue task, once a day. -/
def firstTrial : Program Unit := do let _ ← Engine.execute {} Engine.overdueRule Engine.overdueTask true

/-- The session of this trial, up to the call that enters the actions. -/
def trialSession : Session Moment :=
  .alone (Moment.ofInstant 0) 7 { clock := Moment.ofInstant 0 } firstTrial []

/-- A rule was tried for an overdue task and is skipped from then on; an hour later the day is still
the same; and a rule that does not match uses no day. -/
theorem suppression_exact_of_trial :
    (Engine.skipReason {} trialSession.world Engine.overdueRule Engine.overdueTask = some "Already executed today"
      ∧ Engine.overdueTask.dayRun Engine.overdueRule ∈ trialSession.ran)
    ∧ { Engine.overdueTask with occurredAt := Moment.ofInstant 3600000000 }.dayRun Engine.overdueRule
      = Engine.overdueTask.dayRun Engine.overdueRule
    ∧ ((Engine.execute {} { Engine.overdueRule with conditions := [("nothing", .null)] } Engine.overdueTask true).run
      trialSession.world).2.days = trialSession.world.days := by
  have hid : ':' ∉ Engine.overdueRule.id.toList := by decide +kernel
  have hskip : Engine.skipReason {} trialSession.world Engine.overdueRule Engine.overdueTask
      = some "Already executed today" := by decide +kernel
  have hran : trialSession.ran = [Engine.overdueTask.dayRun Engine.overdueRule] := rfl
  have hstart : Session.Step (faultless {}) { world := { clock := Moment.ofInstant 0 } }
      ⟨{ clock := Moment.ofInstant 0 }, [⟨Moment.ofInstant 0, firstTrial⟩], []⟩ :=
    .start (.inr ⟨Engine.overdueRule, Engine.overdueTask, rfl, rfl⟩)
  have hleads : Session.Leads (faultless {}) { world := { clock := Moment.ofInstant 0 } } trialSession :=
    .head hstart (Session.leads_alone (fun _ => trivial) 7 _ firstTrial [])
  refine ⟨⟨hskip, ?_⟩, ?_, ?_⟩
  · refine suppression_exact.1 {} _ trialSession ⟨rfl, rfl, fun _ => rfl, rfl⟩ hleads rfl ?_ _ _ hid hskip
    intro d hd
    rw [hran] at hd
    rw [List.mem_singleton.mp hd]
    exact hid
  · exact suppression_exact.2.1 Engine.overdueRule Engine.overdueRule _ Engine.overdueTask hid hid (by decide +kernel)
  · have hunmatched : Rule.matches? { Engine.overdueRule with conditions := [("nothing", .null)] } Engine.overdueTask
        = .ok false := rfl
    refine suppression_exact.2.2 {} _ _ _ true ?_
    rw [hunmatched]
    exact nofun

end Scan

end TaskAutomation
