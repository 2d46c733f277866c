import TaskAutomation.Engine.Delivery
import TaskAutomation.Proofs.Engine.Accounting
import TaskAutomation.Proofs.Program.Failure

/-!
# What the engine is not to blame for

An action that fails is part of its record, and a rule that fails is part of the outcome of its
trigger. So nothing that runs rules fails for the rules of the engine itself:

* `Rules.blameless_create`, `Rules.blameless_usersWithActive` and their like : the rule store;
* `Engine.blameless_execute`, `Engine.blameless_process` : one rule, and all rules on a trigger;
* `Delivery.blameless_handle`, `Scan.blameless_all` : events and scans.
-/

namespace TaskAutomation

open Check Program

namespace Rules

theorem blameless_get (id : String) : Blameless (get id) := by
  refine .guarded (fun _ => rfl) (.bind (.store _) fun cells => ?_)
  split
  · exact .done _
  · exact .bind .setting fun s => .bind (.ofChecked _ fun _ => rfl) fun rule => .done _

theorem blameless_load (ids : List String) : Blameless (load ids) := by
  refine .guarded (fun _ => rfl) (.bind (.each fun id _ => blameless_get id) fun rules => ?_)
  refine .ofExcept fun f hf => ?_
  unfold oldestFirst at hf
  split at hf <;> cases hf
  rfl

theorem blameless_usersWithActive (triggers : List Trigger) :
    Blameless (usersWithActive triggers) := by
  refine .guarded (fun _ => rfl) ?_
  cases triggers with
  | nil => exact .done _
  | cons t rest => exact .bind (.store _) fun ids => .bind (blameless_load ids) fun rules => .done _

theorem blameless_create (rule : Rule) : Blameless (create rule) :=
  .guarded (fun _ => rfl) (.bind (.store _) fun _ => .bind (.store _) fun _ =>
    .bind (.store _) fun _ => .bind (.store _) fun _ => .done _)

theorem blameless_recordRun (s : Settings) (run : Execution) : Blameless (recordRun s run) := by
  have hpush : ∀ key cell limit, Blameless (pushBounded key cell limit) :=
    fun key cell limit => .bind (.store _) fun _ => .store _
  exact .guarded (fun _ => rfl) (.bind (hpush _ _ _) fun _ => hpush _ _ _)

theorem blameless_countRun (id : String) (ranAt : Moment) : Blameless (countRun id ranAt) := by
  refine .guarded (fun _ => rfl) (.bind (.store _) fun there => ?_)
  split
  · exact .bind (.store _) fun _ => .store _
  · exact .done _

end Rules

theorem Claims.blameless_claim (s : Settings) (key : String) : Blameless (Claims.claim s key) :=
  .guarded (fun _ => rfl) (.store _)

theorem Claims.blameless_mark (s : Settings) (eventId : String) :
    Blameless (Claims.mark s eventId) := by
  refine .guarded (fun _ => rfl) (.bind (.store _) fun isNew => ?_)
  dsimp only
  split
  · exact .bind (.store _) fun _ => .done _
  · exact .done _

namespace Engine

variable {e : Engine}

theorem blameless_keep (record : Execution) : Blameless (e.keep record) :=
  .guarded (fun _ => rfl) (.bind (Rules.blameless_recordRun _ _) fun _ =>
    .bind (Rules.blameless_countRun _ _) fun _ => .call _)

theorem blameless_recordUntried (rule : Rule) (x : Occurrence) (f : Failure) :
    Blameless (e.recordUntried rule x f) :=
  .bind (.of_succeeds (succeeds_recordOf _ _ _ _ _)) fun record =>
    .bind (blameless_keep record) fun _ => .done _

/-- An action that fails is told in the record of its rule, and does not fail the rule. -/
theorem blameless_act (rule : Rule) (x : Occurrence) : Blameless (e.act rule x) := by
  refine .bind (.guarded (fun _ => rfl) (.of_succeeds (succeeds_runActionsFrom _ _ _ _))) fun outcomes => ?_
  exact .bind (.of_succeeds (succeeds_recordOf _ _ _ _ _)) fun record =>
    .bind (blameless_keep record) fun _ => .done _

theorem blameless_mayAct (rule : Rule) (x : Occurrence) (once : Bool) :
    Blameless (e.mayAct rule x once) := by
  unfold mayAct
  split
  · exact Claims.blameless_claim _ _
  · exact .done _

theorem blameless_execute (rule : Rule) (x : Occurrence) (once : Bool) :
    Blameless (e.execute rule x once) := by
  refine .guarded (fun _ => rfl) (.after_attempt fun matched? => ?_)
  cases matched? with
  | error f => exact blameless_recordUntried rule x f
  | ok matched =>
    refine .bind (.call _) fun _ => ?_
    split
    · exact .done _
    · refine .bind (blameless_mayAct rule x once) fun may => ?_
      cases may with
      | true => exact blameless_act rule x
      | false => exact .bind (.call _) fun _ => .done _

theorem blameless_runAll (rules : List Rule) (x : Occurrence) (once : Bool) :
    Blameless (e.runAll rules x once) :=
  .guarded (fun _ => rfl) (.bind
    (.of_succeeds (.each fun rule _ => succeeds_executeSafely rule x once)) fun _ => .done _)

theorem blameless_process (x : Occurrence) (once : Bool) : Blameless (e.process x once) := by
  refine .guarded (fun _ => rfl) (.bind (.call _) fun _ => .after_attempt fun rules? => ?_)
  cases rules? with
  | ok rules => exact blameless_runAll rules x once
  | error f => exact .done _

end Engine

theorem Delivery.blameless_handle (e : Engine) (event : Event) :
    Blameless (Delivery.handle e event) := by
  refine .bind (Claims.blameless_mark _ _) fun isNew => ?_
  cases isNew with
  | true => exact .bind (.guarded (fun _ => rfl) (Engine.blameless_process _ _)) fun outcome => .done _
  | false => exact .done _

namespace Scan

variable {e : Engine} {moment : Moment}

theorem succeeds_userSafely (userId : String) :
    (userSafely e moment userId).Succeeds fun _ => True := by
  refine .after_attempt fun report? => ?_
  cases report? with
  | ok report => exact .done trivial
  | error f => exact .done trivial

theorem blameless_all : Blameless (all e moment) :=
  .guarded (fun _ => rfl) (.bind (Rules.blameless_usersWithActive _) fun _ =>
    .bind (.of_succeeds (.each fun userId _ => succeeds_userSafely userId)) fun _ =>
      .bind (.call _) fun _ => .done _)

end Scan

end TaskAutomation
