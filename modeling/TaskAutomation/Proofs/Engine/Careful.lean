import TaskAutomation.Engine.Scan
import TaskAutomation.Proofs.Action.Effects
import TaskAutomation.Proofs.Rules.Effects

/-!
# Days are taken before actions run

* `Engine.entry rule x` : the call with which the actions of a rule are entered;
  `Engine.claimOf e rule x` : the call that takes its day;
* `Call.Quiet c` : the call does neither of these;
* `Careful e moment p` : wherever the program goes, it enters the actions of a rule only as the very
  next call after it took the rule's day, for a trigger at the moment, and does nothing else about
  days;
* `Scan.careful_user`, `Scan.careful_all` : with days claimed, every scan is careful.
-/

namespace TaskAutomation

open Check Program

namespace Engine

/-- The call that enters the actions of a rule for a trigger. -/
abbrev entry (rule : Rule) (x : Occurrence) : Call :=
  .enter (operation "_run_actions") none (.run rule x)

/-- The call that takes the day of a rule for a trigger. -/
abbrev claimOf (e : Engine) (rule : Rule) (x : Occurrence) : Call :=
  .store (.claim (.executionDedup (x.dayKey rule)) (.text "1") e.settings.scanDedupTtl)

end Engine

/-- The call neither touches a day nor enters the actions of a rule. -/
def Call.Quiet : Call → Prop
  | .store c => ∀ key, c.written ≠ some (.executionDedup key)
  | .enter o _ (.run _ _) => o ≠ Engine.operation "_run_actions"
  | _ => True

theorem Call.quiet_of_touches {area : Key → Prop} (harea : ∀ key, ¬area (.executionDedup key))
    (c : Call) (h : c.Touches area) : c.Quiet := by
  cases c with
  | store c =>
    intro key hkey
    exact harea key (h _ hkey)
  | enter o argument subject => cases subject with
    | run rule x => exact h.elim
    | _ => trivial
  | _ => trivial

/-- The program enters the actions of a rule only right after it took the rule's day, for a trigger
at the moment. -/
inductive Careful (e : Engine) (moment : Moment) {α : Type} : Program α → Prop where
  | done (a : α) : Careful e moment (.done a)
  | fail (f : Failure) : Careful e moment (.fail f)
  | ask {c : Call} {next : c.Reply → Program α} (hc : c.Quiet)
    (h : ∀ r, Careful e moment (next r)) : Careful e moment (.ask c next)
  | claim {rule : Rule} {x : Occurrence} {next : Bool → Program α}
    {acts : Option String → Program α} (hx : x.occurredAt = moment)
    (htaken : Careful e moment (next false))
    (hfree : next true = .ask (Engine.entry rule x) acts)
    (hacts : ∀ r, Careful e moment (acts r)) :
    Careful e moment (.ask (Engine.claimOf e rule x) next)

namespace Careful

variable {α β : Type} {e : Engine} {moment : Moment}

theorem of_within {p : Program α} (h : p.Within Call.Quiet) : Careful e moment p := by
  induction h with
  | done a => exact .done a
  | fail f => exact .fail f
  | ask hc h ih => exact .ask hc ih

theorem of_touches {area : Key → Prop} {p : Program α} (h : p.Within (Call.Touches area))
    (harea : ∀ key, ¬area (.executionDedup key)) : Careful e moment p :=
  of_within (h.mono (Call.quiet_of_touches harea))

theorem of_works {p : Program α} (h : Works p) : Careful e moment p := of_touches h fun _ => id

theorem of_reads {p : Program α} (h : Reads p) : Careful e moment p := of_touches h fun _ => id

theorem bind {p : Program α} {g : α → Program β} (hp : Careful e moment p)
    (hg : ∀ a, Careful e moment (g a)) : Careful e moment (p >>= g) := by
  show Careful e moment (Program.bind p g)
  induction hp with
  | done a => exact hg a
  | fail f => exact .fail f
  | ask hc h ih => exact .ask hc ih
  | claim hx htaken hfree hacts ihtaken ihacts =>
    refine .claim hx ihtaken ?_ ihacts
    rw [hfree]
    rfl

theorem attempt {p : Program α} (h : Careful e moment p) : Careful e moment p.attempt := by
  induction h with
  | done a => exact .done _
  | fail f => exact .done _
  | ask hc h ih => exact .ask hc ih
  | claim hx htaken hfree hacts ihtaken ihacts =>
    refine .claim hx ihtaken ?_ ihacts
    rw [hfree]
    rfl

theorem each {f : α → Program β} {items : List α} (h : ∀ a ∈ items, Careful e moment (f a)) :
    Careful e moment (Program.each f items) := by
  induction items with
  | nil => exact .done _
  | cons a rest ih =>
    refine .bind (h a List.mem_cons_self) fun b => ?_
    refine .bind (ih fun c hc => h c (List.mem_cons_of_mem a hc)) fun bs => ?_
    exact .done _

theorem ofExcept (r : Except Failure α) : Careful e moment (Program.ofExcept r) :=
  of_within (.ofExcept r)

theorem count (m : Metric) : Careful e moment (Program.count m) := of_works (.call trivial)

theorem guarded {o : Operation} {argument : Option Value} {subject : Subject} {body : Program α}
    (ho : (Call.enter o argument subject).Quiet) (h : Careful e moment body) :
    Careful e moment (o.guarded argument subject body) := by
  refine .ask ho fun message? => ?_
  cases message? with
  | some message => exact .fail _
  | none => exact h

end Careful

/-! ## Rules -/

namespace Engine

variable {e : Engine} {moment : Moment}

theorem quiet_of_files {α : Type} {p : Program α} (h : Files p) : p.Within Call.Quiet :=
  h.mono (Call.quiet_of_touches fun _ => id)

theorem files_recordOf (rule : Rule) (x : Occurrence) (actions : List ActionOutcome)
    (status : ExecutionStatus) (error : Option String) :
    Files (recordOf rule x actions status error) :=
  .bind (.call trivial) fun _ => .bind (.call trivial) fun _ => .done _

theorem files_keep (record : Execution) : Files (e.keep record) :=
  .guard trivial (.bind (Rules.files_recordRun _ _) fun _ =>
    .bind (Rules.files_countRun _ _) fun _ => .call trivial)

theorem files_recordUntried (rule : Rule) (x : Occurrence) (f : Failure) :
    Files (e.recordUntried rule x f) :=
  .bind (files_recordOf _ _ _ _ _) fun record => .bind (files_keep record) fun _ => .done _

theorem works_runActionsFrom (rule : Rule) (x : Occurrence) (context : Fields)
    (actions : List Action) : Works (e.runActionsFrom rule x context actions) := by
  induction actions generalizing context with
  | nil => exact .done _
  | cons a rest ih =>
    refine .bind (.attempt (e.works_dispatch a x.task context _ _)) fun result => ?_
    refine .bind (.call trivial) fun _ => .bind ?_ fun outcome => .bind (ih _) fun outcomes => .done _
    refine .bind (.call trivial) fun now => ?_
    cases result with
    | ok fields => exact .done _
    | error f => exact .done _

/-- The actions of a rule are entered with the first call. -/
theorem act_eq_ask (e : Engine) (moment : Moment) (rule : Rule) (x : Occurrence) :
    ∃ acts, e.act rule x = .ask (entry rule x) acts ∧ ∀ r, Careful e moment (acts r) := by
  refine ⟨_, rfl, fun message? => ?_⟩
  have hrest : ∀ outcomes, Careful e moment (do
      let record ← recordOf rule x outcomes (.of outcomes) (errorText? outcomes)
      e.keep record
      return ({ ruleId := rule.id, matched := true, record := some record } : RuleOutcome)) :=
    fun outcomes => .of_within (quiet_of_files (.bind (files_recordOf _ _ _ _ _) fun record =>
      .bind (files_keep record) fun _ => .done _))
  cases message? with
  | some message => exact .fail (.unreachable message)
  | none =>
    have hactions := works_runActionsFrom (e := e) rule x x.context rule.actions
    exact Careful.bind (.of_works hactions) hrest

theorem quiet_enter_execute (rule : Rule) (x : Occurrence) :
    (Call.enter (operation "execute_rule") none (.run rule x)).Quiet := by
  show operation "execute_rule" ≠ operation "_run_actions"
  decide

theorem quiet_enter_evaluate (rule : Rule) (x : Occurrence) :
    (Call.enter ⟨"evaluator", "evaluate_conditions"⟩ none (.run rule x)).Quiet := by
  show Operation.mk "evaluator" "evaluate_conditions" ≠ operation "_run_actions"
  decide

/-- With days claimed, a rule's actions are entered only once its day was taken. -/
theorem careful_execute (hdedup : e.settings.scanDedup = true) (rule : Rule) {x : Occurrence}
    (hx : x.occurredAt = moment) : Careful e moment (e.execute rule x true) := by
  have hevaluate : Careful e moment (evaluate rule x) :=
    .guarded (quiet_enter_evaluate rule x) (.ofExcept _)
  refine .guarded (quiet_enter_execute rule x) (.bind hevaluate.attempt fun matched? => ?_)
  cases matched? with
  | error f => exact .of_within (quiet_of_files (files_recordUntried rule x f))
  | ok matched =>
    refine .bind (.count _) fun _ => ?_
    split
    · exact .done _
    · rw [mayAct, hdedup]
      refine .ask trivial fun message? => ?_
      cases message? with
      | some message => exact .fail _
      | none =>
        obtain ⟨acts, hact, hacts⟩ := act_eq_ask e moment rule x
        have htaken : Careful e moment (do
            count (.ruleDeduplicated x.event)
            return ({ ruleId := rule.id, matched := true, skipped := some "Already executed today" } :
              RuleOutcome)) := .bind (.count _) fun _ => .done _
        exact .claim hx htaken hact hacts

theorem careful_executeSafely (hdedup : e.settings.scanDedup = true) (rule : Rule) {x : Occurrence}
    (hx : x.occurredAt = moment) : Careful e moment (e.executeSafely x true rule) := by
  refine .bind (careful_execute hdedup rule hx).attempt fun outcome? => ?_
  cases outcome? with
  | ok outcome => exact .done _
  | error f => exact .done _

theorem careful_process (hdedup : e.settings.scanDedup = true) {x : Occurrence}
    (hx : x.occurredAt = moment) : Careful e moment (e.process x true) := by
  refine .guarded trivial (.bind (.count _) fun _ => ?_)
  refine .bind (.attempt (.of_reads (Rules.reads_active _ _))) fun rules? => ?_
  cases rules? with
  | error f => exact .done _
  | ok rules =>
    refine .guarded trivial (.bind (.each fun rule _ => ?_) fun outcomes => .done _)
    exact careful_executeSafely hdedup rule hx

end Engine

/-! ## Scans -/

namespace Scan

variable {e : Engine} {moment : Moment}

theorem careful_task (hdedup : e.settings.scanDedup = true) (event : Trigger) (t : Task) :
    Careful e moment.inUtc (task e moment event t) := by
  refine .bind (.attempt (Engine.careful_process hdedup rfl)) fun outcome? => ?_
  cases outcome? with
  | ok outcome => exact .done _
  | error f => exact .done _

/-- With days claimed, the scan of a user is careful. -/
theorem careful_user (hdedup : e.settings.scanDedup = true) (userId : String) :
    Careful e moment.inUtc (user e userId moment) := by
  refine .guarded trivial (.bind (.of_works (Tasks.discreet_overdue _ _).touches) fun overdue => ?_)
  refine .bind (.ofExcept _) fun stop => .bind (.of_works (Tasks.discreet_dueWithin _ _ _).touches) fun soon => ?_
  refine .bind (.each fun t _ => careful_task hdedup _ t) fun late => ?_
  exact .bind (.each fun t _ => careful_task hdedup _ t) fun near => .done _

/-- With days claimed, the scan of all users is careful. -/
theorem careful_all (hdedup : e.settings.scanDedup = true) :
    Careful e moment.inUtc (all e moment) := by
  refine .guarded trivial (.bind (.of_reads (Rules.reads_usersWithActive _)) fun users => ?_)
  refine .bind (.each fun userId _ => ?_) fun reports => .bind (.count _) fun _ => .done _
  refine .bind (careful_user hdedup userId).attempt fun report? => ?_
  cases report? with
  | ok report => exact .done _
  | error f => exact .done _

end Scan

end TaskAutomation
