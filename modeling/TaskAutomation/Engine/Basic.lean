import TaskAutomation.Action.Creation
import TaskAutomation.Action.Relation
import TaskAutomation.Action.Telling
import TaskAutomation.Scope
import TaskAutomation.Template

/-!
# The engine

* `ActionType.run` : what each type of action does;
* `Registry` : which type of action a word stands for; `Registry.standard` has every type under its
  own name;
* `Engine.dispatch` : one action of a rule, its parameters filled in from the scope of its trigger
  and checked for its type.
-/

namespace TaskAutomation

/-- What a type of action does, with its parameters, for a task and on an occasion. -/
def ActionType.run : ActionType → Parameters → Task → Occasion → Program Fields
  | .createTask => Creation.task
  | .createFollowUp => Creation.followUp
  | .createSubtasks => Creation.subtasks
  | .updateStatus => Change.status
  | .updatePriority => Change.priority
  | .reschedule => Change.reschedule
  | .updateEstimates => Change.estimates
  | .assignUser => Relation.assign
  | .addDependency => Relation.depend
  | .updateRelatedTasks => Relation.updateAll
  | .updateDependencies => Relation.startDependents
  | .sendNotification => Telling.notification
  | .createReport => Telling.report
  | .createReminder => Telling.reminder
  | .logActivity => Telling.activity

/-- The types of action by the words they are called with, each word at most once. -/
abbrev Registry := List (String × ActionType)

namespace Registry

/-- Every type under its own name. -/
def standard : Registry :=
  [ActionType.createTask, .updateStatus, .updatePriority, .sendNotification, .assignUser,
    .createFollowUp, .reschedule, .addDependency, .createSubtasks, .updateRelatedTasks,
    .updateDependencies, .logActivity, .updateEstimates, .createReport, .createReminder].map
      fun t => (t.name, t)

/-- The registry with a word that stands for a type; a word that is there keeps its place. -/
def enter (word : String) (type : ActionType) : Registry → Registry
  | [] => [(word, type)]
  | (w, t) :: rest =>
    if w == word then (w, type) :: rest else (w, t) :: enter word type rest

/-- The words in order. -/
def words (r : Registry) : List String := r.map (·.1)

end Registry

/-- What runs rules: the settings and the registry of actions. -/
structure Engine where
  settings : Settings := {}
  registry : Registry := .standard

/-- The parameters of an action with their placeholders filled in. -/
def Action.filled (a : Action) (task : Task) (context : Fields) : Fields :=
  Template.interpolateFields (Scope.build task.fields context) a.parameters

namespace Engine

/-- The parameters of an action, filled in and checked for its type. -/
def parameters (a : Action) (task : Task) (context : Fields) : Program Parameters := do
  match Parameters.read a.type (← Program.setting) (a.filled task context) with
  | .ok p => return p
  | .issues found => .fail (.badParameters a.type found)

/-- Runs one action for a task; dates count from a moment, or else from now. -/
def dispatch (e : Engine) (a : Action) (task : Task) (context : Fields) (rule : Option Rule)
    (moment : Option Moment) : Program Fields :=
  (Operation.mk "dispatcher" "execute").guard none do
    match e.registry.lookup a.type with
    | none => .fail (.unknownAction a.type)
    | some type =>
      let p ← parameters a task context
      let now ← match moment with
        | some m => pure m
        | none => Program.now
      match ← Program.attempt (type.run p task ⟨e.settings, now, rule, context⟩) with
      | .ok result => return result
      | .error f => .fail f.ofExecutor

end Engine

end TaskAutomation
