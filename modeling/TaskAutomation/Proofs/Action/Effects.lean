import TaskAutomation.Engine.Basic
import TaskAutomation.Proofs.Program.Within

/-!
# What actions may do

* `Serves p` : the program writes nothing but tasks and their relations, inboxes, and timelines, runs
  and records no rule, and counts nothing about rules; `Works p` : it writes and runs nothing else;
* `Tasks.discreet_get`, `Tasks.discreet_getMany`, `Tasks.discreet_recent` : the listings of tasks write
  nothing; `Tasks.discreet_save`, `Tasks.discreet_update` and their like : who writes tasks writes their
  records only (`Tasks.IsRecord`);
* `Tasks.serves_createDependency`, `Inbox.serves_notify`, `Timeline.serves_append` and their like : the other
  stores that actions use;
* `ActionType.serves_run`, `Engine.serves_dispatch` : every action serves, and so it works
  (`Engine.works_dispatch`).
-/

namespace TaskAutomation

open Check Program

/-- The program writes only what actions work on. -/
abbrev Works {α : Type} (p : Program α) : Prop := p.Within (Call.Touches Key.isWork)

/-- The program writes only what actions work on, and nothing that it does is about rules. -/
abbrev Serves {α : Type} (p : Program α) : Prop := p.Within (Call.Discreet Key.isWork)

/-! ## Tasks -/

namespace Tasks

theorem discreet_get {area : Key → Prop} (id : String) : (get id).Within (Call.Discreet area) := by
  refine .guard trivial (.bind (.read rfl) fun cell => ?_)
  split
  · exact .bind (.setting trivial) fun s => .bind (.ofChecked _ _) fun task => .done _
  · exact .done _

theorem discreet_getMany {area : Key → Prop} (ids : List String) :
    (getMany ids).Within (Call.Discreet area) :=
  .guard trivial (.bind (.each fun id _ => discreet_get id) fun _ => .done _)

theorem discreet_recent {area : Key → Prop} (userId : String) (limit : Int) :
    (recent userId limit).Within (Call.Discreet area) :=
  .guard trivial (.bind (.read rfl) fun ids => discreet_getMany ids)

/-- A task moves between the sets of one kind only. -/
theorem discreet_move {area : Key → Prop} (id : String) {key : String → Key}
    (hkey : ∀ s, area (key s)) (old new : Option String) :
    (move id key old new).Within (Call.Discreet area) := by
  have hadd : ∀ n, (if !n.isEmpty then store (.setAdd (key n) id) else pure () : Program Unit).Within
      (Call.Discreet area) := by
    intro n
    split
    · exact .write rfl (hkey n)
    · exact .done _
  unfold move
  cases old with
  | none => cases new with
    | none => exact .done _
    | some n => exact hadd n
  | some o =>
    dsimp only
    split
    · refine .bind (.write rfl (hkey o)) fun _ => ?_
      cases new with
      | none => exact .done _
      | some n => exact hadd n
    · cases new with
      | none => exact .done _
      | some n => exact hadd n

/-- The last part of writing a task: it moves to the sets of its client and its parent. -/
def moves (task : Task) (previous : Option Task) : Program Task := do
  move task.id .taskClient (previous.bind Task.clientId) task.clientId
  move task.id .taskParent (previous.bind Task.parentTaskId) task.parentTaskId
  return task

theorem discreet_moves {area : Key → Prop} (hclient : ∀ c, area (.taskClient c))
    (hparent : ∀ p, area (.taskParent p)) (task : Task) (previous : Option Task) :
    (moves task previous).Within (Call.Discreet area) :=
  .bind (discreet_move _ hclient _ _) fun _ => .bind (discreet_move _ hparent _ _) fun _ => .done _

/-- The keys of tasks and of the indexes that are kept in step with them. -/
def IsRecord : Key → Prop
  | .taskDetail _ | .taskUser _ | .taskDue _ | .taskClient _ | .taskParent _ => True
  | _ => False

theorem isWork_of_isRecord (k : Key) (h : IsRecord k) : k.isWork := by
  cases k <;> trivial

theorem discreet_save (task : Task) (previous : Option Task) :
    (save task previous).Within (Call.Discreet IsRecord) := by
  have hmoves : (moves task previous).Within (Call.Discreet IsRecord) :=
    discreet_moves (fun _ => trivial) (fun _ => trivial) task previous
  refine .guard trivial (.bind (.write rfl trivial) fun _ => .bind (.write rfl trivial) fun _ => ?_)
  dsimp only
  split
  · exact .bind (.write rfl trivial) fun _ => hmoves
  · exact .bind (.write rfl trivial) fun _ => hmoves

theorem discreet_newId {area : Key → Prop} (front : String) :
    (newId front).Within (Call.Discreet area) := .bind (.call trivial) fun _ => .done _

theorem discreet_create (fields : Fields) : (create fields).Within (Call.Discreet IsRecord) := by
  have hrest : ∀ id : Value, (do
      let task ← ofChecked "Task" (Task.check (← setting) (.obj (fields.put "id" id)))
      save task none : Program Task).Within (Call.Discreet IsRecord) := fun id =>
    .bind (.setting trivial) fun s => .bind (.ofChecked _ _) fun task => discreet_save task none
  refine .guard trivial ?_
  dsimp only
  split
  · exact .bind (.done _) hrest
  · exact .bind (.bind (discreet_newId _) fun _ => .done _) hrest

theorem discreet_update (id : String) (fields : Fields) :
    (update id fields).Within (Call.Discreet IsRecord) := by
  refine .guard trivial (.bind (discreet_get id) fun existing => ?_)
  cases existing with
  | none => exact .fail _
  | some existing =>
    exact .bind (.setting trivial) fun s => .bind (.ofChecked _ _) fun task =>
      discreet_save task (some existing)

theorem discreet_createSubtask (parentId : String) (fields : Fields) :
    (createSubtask parentId fields).Within (Call.Discreet IsRecord) :=
  .guard trivial (discreet_create _)

theorem discreet_updateRelated (field : String) (value : Value) (except : String) (r : Relation) :
    (updateRelated field value except r).Within (Call.Discreet IsRecord) := by
  refine .guard trivial ?_
  split
  · exact .done _
  · refine .bind (.read rfl) fun ids => .each fun id _ => ?_
    exact .bind (discreet_update id _) fun _ => .done _

/-- Who writes tasks only works. -/
theorem serves_of_discreet {α : Type} {p : Program α} (h : p.Within (Call.Discreet IsRecord)) :
    Serves p := h.mono (Call.Discreet.mono isWork_of_isRecord)

/-- The keys of dependencies, and of the sets of those that depend on a task. -/
def IsDependency : Key → Prop
  | .dependency _ | .taskDependents _ => True
  | _ => False

theorem discreet_createDependency (taskId dependsOn : Value) :
    (createDependency taskId dependsOn).Within (Call.Discreet IsDependency) := by
  refine .guard trivial (.bind (discreet_newId _) fun id => ?_)
  refine .bind (.ofExcept _) fun task => .bind (.ofExcept _) fun other => .bind (.call trivial) fun now => ?_
  exact .bind (.write rfl trivial) fun _ => .bind (.write rfl trivial) fun _ => .done _

theorem serves_createDependency (taskId dependsOn : Value) :
    Serves (createDependency taskId dependsOn) :=
  (discreet_createDependency taskId dependsOn).mono
    (Call.Discreet.mono fun k hk => by cases k <;> trivial)

theorem serves_dependents (taskId : String) : Serves (dependents taskId) :=
  .guard trivial (.bind (.read rfl) fun _ => discreet_getMany _)

theorem serves_createAssignment (taskId : String) (userId : Value) (assignedBy : String) :
    Serves (createAssignment taskId userId assignedBy) := by
  refine .guard trivial (.bind (discreet_newId _) fun id => .bind (.ofExcept _) fun user => ?_)
  exact .bind (.call trivial) fun now => .bind (.write rfl trivial) fun _ => .done _

theorem discreet_overdue {area : Key → Prop} (userId : String) (asOf : Moment) :
    (overdue userId asOf).Within (Call.Discreet area) :=
  .guard trivial (.bind (.read rfl) fun _ => .bind (discreet_getMany _) fun _ => .done _)

theorem discreet_dueWithin {area : Key → Prop} (userId : String) (start stop : Moment) :
    (dueWithin userId start stop).Within (Call.Discreet area) :=
  .guard trivial (.bind (.read rfl) fun _ => .bind (discreet_getMany _) fun _ => .done _)

end Tasks

/-! ## Inboxes and timelines -/

theorem Inbox.serves_allows (userId : String) (limit : Int) : Serves (Inbox.allows userId limit) := by
  refine .bind (.call trivial) fun now => .bind (.write rfl trivial) fun n => ?_
  dsimp only
  split
  · exact .bind (.write rfl trivial) fun _ => .done _
  · exact .done _

theorem Inbox.serves_notify (s : Settings) (userId title message : Value) (taskId : Option String)
    (url : Value) : Serves (Inbox.notify s userId title message taskId url) := by
  refine .guard trivial (.bind (Inbox.serves_allows _ _) fun allowed => ?_)
  split
  · refine .bind (.call trivial) fun id => .bind (.setting trivial) fun setting => .bind (.ofChecked _ _) fun n => ?_
    exact .bind (.write rfl trivial) fun _ => .bind (.write rfl trivial) fun _ =>
      .bind (.call trivial) fun _ => .done _
  · exact .bind (.call trivial) fun _ => .done _

theorem Timeline.serves_append (taskId : String) (userId type description metadata : Value) :
    Serves (Timeline.append taskId userId type description metadata) := by
  refine .guard trivial (.bind (.call trivial) fun id => .bind (.setting trivial) fun setting => ?_)
  refine .bind (.ofChecked _ _) fun entry => ?_
  exact .bind (.write rfl trivial) fun _ => .bind (.write rfl trivial) fun _ => .done _

/-! ## Parameters -/

/-- No call is made for a parameter. -/
theorem Parameters.within_need {ok : Call → Prop} (p : Parameters) (name : String) :
    (p.need name).Within ok := by
  unfold Parameters.need
  split
  · exact .done _
  · exact .fail _

theorem Parameters.within_word {ok : Call → Prop} (p : Parameters) (name : String) :
    (p.word name).Within ok := by
  refine .bind (p.within_need name) fun v => ?_
  split
  · exact .done _
  · exact .fail _

theorem Occasion.within_dueDate {ok : Call → Prop} (o : Occasion) (spec : Value) :
    (o.dueDate spec).Within ok := by
  unfold Occasion.dueDate
  split
  · exact .done _
  · split
    · exact .done _
    · exact .fail _

/-! ## Actions -/

namespace Creation

open Parameters Occasion

variable (p : Parameters) (t : Task) (o : Occasion)

theorem serves_task : Serves (task p t o) := by
  refine .bind (within_need p _) fun spec => .bind (within_dueDate o _) fun due => ?_
  refine .bind (within_need p _) fun title => .bind (within_need p _) fun description => ?_
  refine .bind (within_need p _) fun client => .bind (within_word p _) fun priority => ?_
  refine .bind (within_word p _) fun status => .bind (within_need p _) fun tag => ?_
  refine .bind (within_need p _) fun hours => .bind (within_need p _) fun parent => ?_
  exact .bind (Tasks.serves_of_discreet (Tasks.discreet_create _)) fun created => .done _

theorem serves_followUp : Serves (followUp p t o) := by
  refine .bind (within_need p _) fun spec => .bind (within_dueDate o _) fun due => ?_
  refine .bind (within_need p _) fun title => .bind (within_need p _) fun description => ?_
  refine .bind (within_need p _) fun client => .bind (within_word p _) fun priority => ?_
  refine .bind (within_need p _) fun tag => .bind (within_need p _) fun hours => ?_
  exact .bind (Tasks.serves_of_discreet (Tasks.discreet_create _)) fun created => .done _

theorem serves_subtask : Serves (subtask p t o) := by
  refine .bind (within_need p _) fun title => .bind (within_need p _) fun description => ?_
  refine .bind (within_need p _) fun client => .bind (within_word p _) fun priority => ?_
  refine .bind (within_need p _) fun tag => .bind (within_need p _) fun spec => ?_
  refine .bind (within_dueDate o _) fun due => .bind (within_need p _) fun hours => ?_
  exact .bind (Tasks.serves_of_discreet (Tasks.discreet_createSubtask _ _)) fun created => .done _

theorem serves_subtasks : Serves (subtasks p t o) := by
  refine .bind (within_need p _) fun specs => .bind (.ofExcept _) fun specs => ?_
  refine .bind (.each fun item _ => ?_) fun ids => .done _
  unfold subtaskOf
  split
  · exact serves_subtask _ t o
  · exact .fail _

end Creation

namespace Change

open Parameters Occasion

variable (p : Parameters) (t : Task) (o : Occasion)

theorem serves_status : Serves (status p t o) :=
  .bind (within_word p _) fun _ => .bind (Tasks.serves_of_discreet (Tasks.discreet_update _ _)) fun _ => .done _

theorem serves_priority : Serves (priority p t o) :=
  .bind (within_word p _) fun _ => .bind (Tasks.serves_of_discreet (Tasks.discreet_update _ _)) fun _ => .done _

theorem serves_reschedule : Serves (reschedule p t o) :=
  .bind (within_need p _) fun _ => .bind (within_dueDate o _) fun _ =>
    .bind (Tasks.serves_of_discreet (Tasks.discreet_update _ _)) fun _ => .done _

theorem serves_setEstimate (new : Value) : Serves (setEstimate t new) :=
  .bind (Tasks.serves_of_discreet (Tasks.discreet_update _ _)) fun _ => .done _

theorem serves_buffered (actual : Float) : Serves (buffered p actual) :=
  .bind (within_need p _) fun _ => .bind (.ofExcept _) fun _ => .done _

theorem serves_estimates : Serves (estimates p t o) := by
  refine .bind (.ofExcept _) fun tracked => .bind (within_need p _) fun given => ?_
  split
  · split
    · exact .done _
    · split
      · split
        · exact .done _
        · exact .bind (serves_buffered p _) fun new => serves_setEstimate t new
      · exact .bind (serves_buffered p _) fun new => serves_setEstimate t new
  · exact serves_setEstimate t _

end Change

namespace Relation

open Parameters Occasion

variable (p : Parameters) (t : Task) (o : Occasion)

theorem serves_assign : Serves (assign p t o) :=
  .bind (within_need p _) fun _ => .bind (Tasks.serves_createAssignment _ _ _) fun _ => .done _

theorem serves_depend : Serves (depend p t o) := by
  refine .bind (within_need p _) fun task => .bind (within_need p _) fun other => ?_
  dsimp only
  split
  · exact .bind (.fail _) fun _ => .bind (Tasks.serves_createDependency _ _) fun id => .done _
  · exact .bind (Tasks.serves_createDependency _ _) fun id => .done _

theorem serves_updateAll : Serves (updateAll p t o) := by
  refine .bind (within_need p _) fun relation => .bind (within_need p _) fun given => ?_
  refine .bind (within_need p _) fun field => ?_
  have hrest : ∀ value : Value, Serves (do
      let byClient := (kind relation t).same (.str "client")
      if byClient && (t.clientId.getD "").isEmpty then
        return [("updated_count", .int 0), ("skipped", .bool true),
          ("reason", .str "Task has no client")]
      else
        let ids ← Tasks.updateRelated field.text value t.id (related t byClient)
        return [("relationship", kind relation t), ("field", field), ("value", value),
          ("updated_task_ids", .ofTexts ids), ("updated_count", .count ids)]) := by
    intro value
    dsimp only
    split
    · exact .done _
    · exact .bind (Tasks.serves_of_discreet (Tasks.discreet_updateRelated _ _ _ _)) fun ids => .done _
  dsimp only
  split
  · exact .bind (within_dueDate o _) hrest
  · exact .bind (.done _) hrest

theorem serves_start : Serves (start t) := by
  unfold start
  split
  · exact .bind (Tasks.serves_of_discreet (Tasks.discreet_update _ _)) fun _ => .done _
  · exact .done _

theorem serves_startDependents : Serves (startDependents p t o) := by
  unfold startDependents
  split
  · exact .done _
  · refine .bind (within_need p _) fun given => ?_
    split
    · exact .done _
    · refine .bind (Tasks.serves_dependents _) fun tasks => ?_
      exact .bind (.each fun task _ => serves_start task) fun ids => .done _

end Relation

namespace Telling

open Parameters Occasion

variable (p : Parameters) (t : Task) (o : Occasion)

theorem serves_tell (recipients : List Value) (title message url : Value) :
    Serves (tell recipients title message url t o) := by
  refine .bind (.each fun user _ => ?_) fun sent => .done _
  have hrest : ∀ url : Value, Serves (do
      return (user, ← Inbox.notify o.settings user title message (some t.id) url)) :=
    fun url => .bind (Inbox.serves_notify _ _ _ _ _ _) fun _ => .done _
  dsimp only
  split
  · exact .bind (.done _) hrest
  · exact .bind (.ofExcept _) hrest

theorem serves_notification : Serves (notification p t o) := by
  refine .bind (within_need p _) fun title => .bind (within_need p _) fun message => ?_
  refine .bind (within_need p _) fun url => .bind (serves_tell t o _ _ _ _) fun reached => ?_
  exact .bind (within_need p _) fun type => .done _

theorem serves_report : Serves (report p t o) :=
  .bind (.ofExcept _) fun _ => .bind (within_need p _) fun _ =>
    .bind (serves_tell t o _ _ _ _) fun _ => .done _

theorem serves_reminder : Serves (reminder p t o) := by
  refine .bind (within_need p _) fun spec => .bind (within_dueDate o _) fun moment => ?_
  refine .bind (within_need p _) fun message => .bind (within_need p _) fun title => ?_
  exact .bind (serves_tell t o _ _ _ _) fun reached => .done _

theorem serves_activity : Serves (activity p t o) := by
  refine .bind (within_need p _) fun given => .bind (.ofExcept _) fun noted => ?_
  refine .bind (.attempt ?_) fun logged => ?_
  · refine .bind (within_need p _) fun type => .bind (within_need p _) fun description => ?_
    exact Timeline.serves_append _ _ _ _ _
  · cases logged with
    | ok id => exact .done _
    | error f => exact .done _

end Telling

/-- Every type of action serves. -/
theorem ActionType.serves_run (type : ActionType) (p : Parameters) (t : Task) (o : Occasion) :
    Serves (type.run p t o) := by
  cases type with
  | createTask => exact Creation.serves_task p t o
  | createFollowUp => exact Creation.serves_followUp p t o
  | createSubtasks => exact Creation.serves_subtasks p t o
  | updateStatus => exact Change.serves_status p t o
  | updatePriority => exact Change.serves_priority p t o
  | reschedule => exact Change.serves_reschedule p t o
  | updateEstimates => exact Change.serves_estimates p t o
  | assignUser => exact Relation.serves_assign p t o
  | addDependency => exact Relation.serves_depend p t o
  | updateRelatedTasks => exact Relation.serves_updateAll p t o
  | updateDependencies => exact Relation.serves_startDependents p t o
  | sendNotification => exact Telling.serves_notification p t o
  | createReport => exact Telling.serves_report p t o
  | createReminder => exact Telling.serves_reminder p t o
  | logActivity => exact Telling.serves_activity p t o

namespace Engine

theorem serves_parameters (a : Action) (task : Task) (context : Fields) :
    Serves (parameters a task context) := by
  refine .bind (.setting trivial) fun s => ?_
  split
  · exact .done _
  · exact .fail _

theorem serves_dispatch (e : Engine) (a : Action) (task : Task) (context : Fields)
    (rule : Option Rule) (moment : Option Moment) :
    Serves (e.dispatch a task context rule moment) := by
  refine .guard trivial ?_
  split
  · exact .fail _
  · next type htype =>
    refine .bind (serves_parameters a task context) fun p => ?_
    dsimp only
    split
    case' h_1 => refine .bind (.done _) fun now => ?_
    case' h_2 => refine .bind (.call trivial) fun now => ?_
    all_goals
      refine .bind (.attempt (type.serves_run p task _)) fun result => ?_
      cases result with
      | ok fields => exact .done _
      | error f => exact .fail _

/-- Running one action writes only what actions work on. -/
theorem works_dispatch (e : Engine) (a : Action) (task : Task) (context : Fields)
    (rule : Option Rule) (moment : Option Moment) :
    Works (e.dispatch a task context rule moment) :=
  (e.serves_dispatch a task context rule moment).touches

end Engine

end TaskAutomation
