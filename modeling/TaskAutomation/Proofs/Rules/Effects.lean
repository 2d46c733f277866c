import TaskAutomation.Proofs.Program.Within
import TaskAutomation.Store.Rules

/-!
# What the operations of the rule store may do

* `Reads p` : the program writes nothing and runs no rule; `Files p` : it writes only under the keys of
  rules;
* `Rules.discreet_get`, `Rules.discreet_load`, `Rules.discreet_active`, `Rules.discreet_runs` and their
  like : the listings write nothing, and no rule is run, recorded or counted there; so they read only
  (`Rules.reads_active`, `Rules.reads_usersWithActive`);
* `Rules.discreet_create`, `Rules.discreet_update`, `Rules.discreet_delete`, `Rules.discreet_setActive` :
  edits are as discreet and write only rules and their indexes (`Rules.IsRecord`);
* `Rules.files_recordRun`, `Rules.files_countRun` : so does the history of runs; `Rules.touches_countRun` :
  a run is counted with the rule itself.
-/

namespace TaskAutomation

open Check Program

/-- The program writes nothing. -/
abbrev Reads {α : Type} (p : Program α) : Prop := p.Within (Call.Touches fun _ => False)

/-- The program writes only under the keys of rules. -/
abbrev Files {α : Type} (p : Program α) : Prop := p.Within (Call.Touches Key.isRules)

namespace Rules

variable {area : Key → Prop}

/-! ## Listings -/

theorem discreet_get (id : String) : (get id).Within (Call.Discreet area) := by
  refine .guard trivial (.bind (.read rfl) fun cells => ?_)
  split
  · exact .done _
  · exact .bind (.setting trivial) fun s => .bind (.ofChecked _ _) fun rule => .done _

theorem discreet_load (ids : List String) : (load ids).Within (Call.Discreet area) :=
  .guard trivial (.bind (.each fun id _ => discreet_get id) fun _ => .ofExcept _)

theorem discreet_all : all.Within (Call.Discreet area) :=
  .guard trivial (.bind (.read rfl) fun ids => discreet_load ids)

theorem discreet_ofUser (userId : String) : (ofUser userId).Within (Call.Discreet area) :=
  .guard trivial (.bind (.read rfl) fun ids => discreet_load ids)

theorem discreet_active (userId : String) (trigger : Trigger) :
    (active userId trigger).Within (Call.Discreet area) :=
  .guard trivial (.bind (.read rfl) fun ids => .bind (discreet_load ids) fun _ => .done _)

theorem discreet_usersWithActive (triggers : List Trigger) :
    (usersWithActive triggers).Within (Call.Discreet area) := by
  refine .guard trivial ?_
  cases triggers with
  | nil => exact .done _
  | cons t rest => exact .bind (.read rfl) fun ids => .bind (discreet_load ids) fun _ => .done _

theorem discreet_runs (ruleId userId : Option String) :
    (runs ruleId userId).Within (Call.Discreet area) := by
  have hrange : ∀ key, Program.Within (Call.Discreet area) (do
      let cells : List Cell ← store (.range key (-1))
      each runOf cells) := fun key =>
    .bind (.read rfl) fun cells => .each fun cell _ =>
      .bind (.setting trivial) fun s => .ofChecked _ _
  refine .guard trivial ?_
  dsimp only
  split
  · exact .bind (.done _) hrange
  · exact .bind (.done _) hrange
  · exact .bind (.fail _) hrange

theorem reads_active (userId : String) (trigger : Trigger) : Reads (active userId trigger) :=
  (discreet_active userId trigger).touches

theorem reads_usersWithActive (triggers : List Trigger) : Reads (usersWithActive triggers) :=
  (discreet_usersWithActive triggers).touches

/-! ## Edits -/

/-- The keys of rules and of their indexes. -/
def IsRecord : Key → Prop
  | .ruleDetail _ | .ruleAll | .ruleUser _ | .ruleTrigger _ => True
  | _ => False


theorem discreet_create (rule : Rule) : (create rule).Within (Call.Discreet IsRecord) :=
  .guard trivial (.bind (.write rfl trivial) fun _ => .bind (.write rfl trivial) fun _ =>
    .bind (.write rfl trivial) fun _ => .bind (.write rfl trivial) fun _ => .done _)

theorem discreet_writeDefinition (id : String) (rule : Rule) :
    (writeDefinition id rule).Within (Call.Discreet IsRecord) := .write rfl trivial

theorem discreet_update (id : String) (rule : Rule) :
    (update id rule).Within (Call.Discreet IsRecord) := by
  refine .guard trivial (.bind (discreet_get id) fun existing => ?_)
  cases existing with
  | none => exact .done _
  | some existing =>
    refine .bind (.call trivial) fun now => ?_
    dsimp only
    split
    · refine .bind (.write rfl trivial) fun _ => .bind (.write rfl trivial) fun _ => ?_
      exact .bind (discreet_writeDefinition id _) fun _ => .done _
    · exact .bind (discreet_writeDefinition id _) fun _ => .done _

theorem discreet_delete (id : String) : (delete id).Within (Call.Discreet IsRecord) := by
  refine .guard trivial (.bind (discreet_get id) fun existing => ?_)
  cases existing with
  | none => exact .done _
  | some existing =>
    refine .bind (.write rfl trivial) fun _ => .bind (.write rfl trivial) fun _ => ?_
    exact .bind (.write rfl trivial) fun _ => .bind (.write rfl trivial) fun _ => .done _

theorem discreet_setActive (id : String) (isActive : Bool) :
    (setActive id isActive).Within (Call.Discreet IsRecord) := by
  refine .guard trivial (.bind (discreet_get id) fun existing => ?_)
  cases existing with
  | none => exact .done _
  | some existing =>
    refine .bind (.call trivial) fun now => ?_
    exact .bind (discreet_writeDefinition id _) fun _ => .done _

/-! ## Runs -/

theorem discreet_pushBounded {key : Key} (hkey : area key) (cell : Cell) (limit : Int) :
    (pushBounded key cell limit).Within (Call.Discreet area) :=
  .bind (.write rfl hkey) fun _ => .write rfl hkey

theorem files_recordRun (s : Settings) (run : Execution) : Files (recordRun s run) := by
  have hrule : (Key.executionsRule run.ruleId).isRules := trivial
  have huser : (Key.executionsUser run.userId).isRules := trivial
  exact .guardFor trivial (.bind (discreet_pushBounded hrule _ _).touches fun _ =>
    (discreet_pushBounded huser _ _).touches)

theorem discreet_countRun (id : String) (ranAt : Moment) :
    (countRun id ranAt).Within (Call.Discreet (· = .ruleDetail id)) := by
  refine .guard trivial (.bind (.read rfl) fun there => ?_)
  split
  · exact .bind (.write rfl rfl) fun _ => .write rfl rfl
  · exact .done _

theorem touches_countRun (id : String) (ranAt : Moment) :
    (countRun id ranAt).Within (Call.Touches (· = .ruleDetail id)) := (discreet_countRun id ranAt).touches

theorem files_countRun (id : String) (ranAt : Moment) : Files (countRun id ranAt) := by
  refine (touches_countRun id ranAt).mono (Call.Touches.mono ?_)
  rintro k rfl
  trivial

end Rules

end TaskAutomation
