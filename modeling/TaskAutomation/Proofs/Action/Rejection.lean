import TaskAutomation.Proofs.Action.Effects
import TaskAutomation.Proofs.Program.Failure

/-!
# Rejected actions

* `Tasks.accepts_save`, `Inbox.accepts_notify` and their like : the stores that actions use reject
  nothing;
* `DueDate.Settles reference spec` : a date is null, or stands for a moment;
* `ActionType.dates` : the dates that an action resolves; `ActionType.accepts_run` : an executor
  rejects nothing but one of these that does not settle;
* `Dated o spec p` : the program rejects its action only for one date, and before it writes;
  `ActionType.dated_run` : so does every type of action but the one that makes a list of subtasks.
-/

namespace TaskAutomation

open Check Program

/-! ## Stores -/

theorem accepts_setting : Accepts setting := .bind (.call _) fun _ => .done _

theorem accepts_guard {α : Type} {o : Operation} {argument : Option Value} {body : Program α}
    (h : Accepts body) : Accepts (o.guard argument body) := .guarded (fun _ => rfl) h

theorem accepts_ofChecked {α : Type} (name : String) (c : Checked α) : Accepts (ofChecked name c) :=
  .ofChecked c fun _ => rfl

namespace Tasks

theorem accepts_newId (front : String) : Accepts (newId front) := .bind (.call _) fun _ => .done _

theorem accepts_get (id : String) : Accepts (get id) := by
  refine accepts_guard (.bind (.store _) fun cell => ?_)
  split
  · exact .bind accepts_setting fun s => .bind (accepts_ofChecked _ _) fun task => .done _
  · exact .done _

theorem accepts_getMany (ids : List String) : Accepts (getMany ids) :=
  accepts_guard (.bind (.each fun id _ => accepts_get id) fun _ => .done _)

theorem accepts_move (id : String) (key : String → Key) (old new : Option String) :
    Accepts (move id key old new) := by
  have hadd : ∀ n : String, Accepts (if !n.isEmpty then store (.setAdd (key n) id) else pure ()) := by
    intro n
    split
    · exact .store _
    · exact .done _
  unfold move
  cases old with
  | none => cases new with
    | none => exact .done _
    | some n => exact hadd n
  | some o =>
    dsimp only
    split
    · refine .bind (.store _) fun _ => ?_
      cases new with
      | none => exact .done _
      | some n => exact hadd n
    · cases new with
      | none => exact .done _
      | some n => exact hadd n

theorem accepts_save (task : Task) (previous : Option Task) : Accepts (save task previous) := by
  have hmoves : Accepts (do
      move task.id .taskClient (previous.bind Task.clientId) task.clientId
      move task.id .taskParent (previous.bind Task.parentTaskId) task.parentTaskId
      return task) :=
    .bind (accepts_move _ _ _ _) fun _ => .bind (accepts_move _ _ _ _) fun _ => .done _
  refine accepts_guard (.bind (.store _) fun _ => .bind (.store _) fun _ => ?_)
  dsimp only
  split
  · exact .bind (.store _) fun _ => hmoves
  · exact .bind (.store _) fun _ => hmoves

theorem accepts_create (fields : Fields) : Accepts (create fields) := by
  have hrest : ∀ id : Value, Accepts (do
      let task ← ofChecked "Task" (Task.check (← setting) (.obj (fields.put "id" id)))
      save task none) := fun id =>
    .bind accepts_setting fun s => .bind (accepts_ofChecked _ _) fun task => accepts_save task none
  refine accepts_guard ?_
  dsimp only
  split
  · exact .bind (.done _) hrest
  · exact .bind (.bind (accepts_newId _) fun _ => .done _) hrest

theorem accepts_update (id : String) (fields : Fields) : Accepts (update id fields) := by
  refine accepts_guard (.bind (accepts_get id) fun existing => ?_)
  cases existing with
  | none => exact .fail rfl
  | some existing =>
    exact .bind accepts_setting fun s => .bind (accepts_ofChecked _ _) fun task =>
      accepts_save task (some existing)

theorem accepts_createSubtask (parentId : String) (fields : Fields) :
    Accepts (createSubtask parentId fields) := accepts_guard (accepts_create _)

theorem accepts_storedText (v : Value) : Accepts (ofExcept (storedText v)) := by
  refine .ofExcept fun f hf => ?_
  unfold storedText at hf
  split at hf <;> cases hf
  rfl

theorem accepts_createDependency (taskId dependsOn : Value) :
    Accepts (createDependency taskId dependsOn) := by
  refine accepts_guard (.bind (accepts_newId _) fun id => ?_)
  refine .bind (accepts_storedText _) fun task => .bind (accepts_storedText _) fun other => ?_
  exact .bind (.call _) fun now => .bind (.store _) fun _ => .bind (.store _) fun _ => .done _

theorem accepts_dependents (taskId : String) : Accepts (dependents taskId) :=
  accepts_guard (.bind (.store _) fun _ => accepts_getMany _)

theorem accepts_updateRelated (field : String) (value : Value) (except : String) (r : Relation) :
    Accepts (updateRelated field value except r) := by
  refine accepts_guard ?_
  split
  · exact .done _
  · exact .bind (.store _) fun ids => .each fun id _ => .bind (accepts_update id _) fun _ => .done _

theorem accepts_createAssignment (taskId : String) (userId : Value) (assignedBy : String) :
    Accepts (createAssignment taskId userId assignedBy) := by
  refine accepts_guard (.bind (accepts_newId _) fun id => .bind (accepts_storedText _) fun user => ?_)
  exact .bind (.call _) fun now => .bind (.store _) fun _ => .done _

end Tasks

theorem Inbox.accepts_allows (userId : String) (limit : Int) :
    Accepts (Inbox.allows userId limit) := by
  refine .bind (.call _) fun now => .bind (.store _) fun n => ?_
  dsimp only
  split
  · exact .bind (.store _) fun _ => .done _
  · exact .done _

theorem Inbox.accepts_notify (s : Settings) (userId title message : Value)
    (taskId : Option String) (url : Value) :
    Accepts (Inbox.notify s userId title message taskId url) := by
  refine accepts_guard (.bind (Inbox.accepts_allows _ _) fun allowed => ?_)
  split
  · refine .bind (.call _) fun id => .bind accepts_setting fun setting => ?_
    refine .bind (accepts_ofChecked _ _) fun n => .bind (.store _) fun _ => ?_
    exact .bind (.store _) fun _ => .bind (.call _) fun _ => .done _
  · exact .bind (.call _) fun _ => .done _

/-! ## Parameters and dates -/

namespace Parameters

/-- A parameter by name, null where there is none. -/
def given (p : Parameters) (name : String) : Value := (p.get? name).getD .null

theorem given_of_get? {p : Parameters} {name : String} {v : Value} (h : p.get? name = some v) :
    p.given name = v := by
  rw [given, h]
  rfl

variable (p : Parameters) (name : String)

theorem accepts_need : Accepts (p.need name) := by
  unfold need
  split
  · exact .done _
  · exact .fail rfl

theorem yields_need : (p.need name).Yields fun v => p.get? name = some v := by
  unfold need
  split
  · next h => exact .done h
  · rintro log v ⟨-, hv⟩
    cases hv

theorem accepts_word : Accepts (p.word name) := by
  refine .bind (p.accepts_need name) fun v => ?_
  split
  · exact .done _
  · exact .fail rfl

end Parameters

/-- A date is null, or stands for a moment. -/
def DueDate.Settles (reference : Moment) (spec : Value) : Prop :=
  spec = .null ∨ (DueDate.resolve reference spec).isSome = true

namespace Occasion

variable (o : Occasion) (spec : Value)

/-- A date is rejected only if it does not settle. -/
theorem throws_dueDate :
    (o.dueDate spec).Throws fun f => f = .unparseableDate spec ∧ ¬DueDate.Settles o.now spec := by
  unfold dueDate
  split
  · exact .done _
  · next hnull =>
    split
    · exact .done _
    · next hnone =>
      refine .fail ⟨rfl, ?_⟩
      rintro (hspec | hsome)
      · exact hnull hspec
      · rw [hnone] at hsome
        cases hsome

end Occasion

/-- The program rejects its action only for one date that does not settle, and before it writes. -/
structure Dated {α : Type} (o : Occasion) (spec : Value) (p : Program α) : Prop where
  first : RejectsFirst p
  throws : p.Throws fun f => f.isRejection = true →
    f = .unparseableDate spec ∧ ¬DueDate.Settles o.now spec

namespace Dated

variable {α β : Type} {o : Occasion} {spec : Value}

theorem of_accepts {p : Program α} (h : Accepts p) : Dated o spec p where
  first := .of_accepts h
  throws := h.mono fun _ hf hreject => by
    rw [hf] at hreject
    cases hreject

/-- With its date settled the program rejects nothing. -/
theorem accepts {p : Program α} (h : Dated o spec p) (hspec : DueDate.Settles o.now spec) :
    Accepts p :=
  h.throws.mono fun _ hf => Bool.eq_false_iff.mpr fun hreject => (hf hreject).2 hspec

/-- The date comes first. -/
theorem of_date {g : Value → Program β} (hg : ∀ due, Accepts (g due)) :
    Dated o spec (o.dueDate spec >>= g) where
  first := .after_reads (o.within_dueDate spec) fun due => .of_accepts (hg due)
  throws := .bind ((o.throws_dueDate spec).mono fun _ hf _ => hf) fun due =>
    (of_accepts (hg due)).throws

/-- What reads and accepts comes before the date. -/
theorem after {p : Program α} {g : α → Program β} (hreads : Reads p) (haccepts : Accepts p)
    (hg : ∀ a, Dated o spec (g a)) : Dated o spec (p >>= g) where
  first := .after_reads hreads fun a => (hg a).first
  throws := .bind (of_accepts haccepts).throws fun a => (hg a).throws

theorem after_need (p : Parameters) (name : String) {g : Value → Program β}
    (hg : ∀ v, Dated o spec (g v)) : Dated o spec (p.need name >>= g) :=
  after (p.within_need name) (p.accepts_need name) hg

/-- The date is made of a parameter. -/
theorem of_need {p : Parameters} {name : String} {g : Value → Program β}
    (hg : ∀ v, p.given name = v → Dated o spec (g v)) : Dated o spec (p.need name >>= g) := by
  unfold Parameters.need
  split
  · next v hv => exact hg v (Parameters.given_of_get? hv)
  · exact of_accepts (.fail rfl)

end Dated

/-! ## Executors -/

namespace Creation

open Parameters

variable (p : Parameters) (t : Task) (o : Occasion)

theorem dated_task : Dated o (p.given "due_date") (task p t o) := by
  refine .of_need fun spec hspec => ?_
  rw [hspec]
  refine .of_date fun due => ?_
  refine .bind (accepts_need p _) fun title => .bind (accepts_need p _) fun description => ?_
  refine .bind (accepts_need p _) fun client => .bind (accepts_word p _) fun priority => ?_
  refine .bind (accepts_word p _) fun status => .bind (accepts_need p _) fun tag => ?_
  refine .bind (accepts_need p _) fun hours => .bind (accepts_need p _) fun parent => ?_
  exact .bind (Tasks.accepts_create _) fun created => .done _

theorem dated_followUp :
    Dated o ((p.given "due_date").orElse (.str o.settings.followUpDue)) (followUp p t o) := by
  refine .of_need fun spec hspec => ?_
  rw [hspec]
  refine .of_date fun due => ?_
  refine .bind (accepts_need p _) fun title => .bind (accepts_need p _) fun description => ?_
  refine .bind (accepts_need p _) fun client => .bind (accepts_word p _) fun priority => ?_
  refine .bind (accepts_need p _) fun tag => .bind (accepts_need p _) fun hours => ?_
  exact .bind (Tasks.accepts_create _) fun created => .done _

theorem dated_subtask : Dated o (p.given "due_date") (subtask p t o) := by
  refine .after_need p _ fun title => .after_need p _ fun description => ?_
  refine .after_need p _ fun client => .after (within_word p _) (accepts_word p _) fun priority => ?_
  refine .after_need p _ fun tag => .of_need fun spec hspec => ?_
  rw [hspec]
  refine .of_date fun due => .bind (accepts_need p _) fun hours => ?_
  exact .bind (Tasks.accepts_createSubtask _ _) fun created => .done _

/-- The date of an item of a list of subtasks. -/
def subtaskDate : Value → Value
  | .obj fields => (Parameters.ofSubtask fields).given "due_date"
  | _ => .null

theorem dated_subtaskOf (isRead : Bool) (item : Value) :
    Dated o (subtaskDate item) (subtaskOf isRead t o item) := by
  unfold subtaskOf
  split
  · exact dated_subtask _ t o
  · exact .of_accepts (.fail rfl)

theorem accepts_items (v : Value) : Accepts (ofExcept (items v)) := by
  refine .ofExcept fun f hf => ?_
  unfold items at hf
  split at hf <;> cases hf
  rfl

/-- The dates of a list of subtasks. -/
def subtaskDates (p : Parameters) : List Value :=
  match items (p.given "subtasks") with
  | .ok specs => specs.map subtaskDate
  | .error _ => []

theorem accepts_subtasks (h : ∀ spec ∈ subtaskDates p, DueDate.Settles o.now spec) :
    Accepts (subtasks p t o) := by
  refine .bind_of_yields (accepts_need p _) (yields_need p _) fun v hv => ?_
  refine .bind_of_yields (accepts_items v) (.ofExcept fun _ hspecs => hspecs) fun specs hspecs => ?_
  rw [subtaskDates, given_of_get? hv, hspecs] at h
  refine .bind (.each fun item hitem => ?_) fun ids => .done _
  exact (dated_subtaskOf t o _ item).accepts (h _ (List.mem_map.mpr ⟨item, hitem, rfl⟩))

end Creation

namespace Change

open Parameters

variable (p : Parameters) (t : Task) (o : Occasion)

theorem accepts_status : Accepts (status p t o) :=
  .bind (accepts_word p _) fun _ => .bind (Tasks.accepts_update _ _) fun _ => .done _

theorem accepts_priority : Accepts (priority p t o) :=
  .bind (accepts_word p _) fun _ => .bind (Tasks.accepts_update _ _) fun _ => .done _

theorem dated_reschedule : Dated o (p.given "due_date") (reschedule p t o) := by
  refine .of_need fun spec hspec => ?_
  rw [hspec]
  exact .of_date fun due => .bind (Tasks.accepts_update _ _) fun _ => .done _

theorem isRejection_of_quotient {v : Value} {n : Nat} {f : Failure} (h : quotient v n = .error f) :
    f.isRejection = false := by
  have hfinite : ∀ x : Float, (if Decimal.isFinite x then Except.ok x
      else .error Failure.quotientOverflow) = .error f → f.isRejection = false := by
    intro x hx
    split at hx <;> cases hx
    rfl
  unfold quotient at h
  dsimp only at h
  split at h
  · exact hfinite _ h
  · exact hfinite _ h
  · cases h
  · cases h
    rfl

theorem accepts_trackedHours : Accepts (ofExcept (trackedHours o)) := by
  refine .ofExcept fun f hf => ?_
  unfold trackedHours at hf
  split at hf
  · split at hf
    · exact isRejection_of_quotient hf
    · cases hf
  · cases hf

theorem accepts_setEstimate (new : Value) : Accepts (setEstimate t new) :=
  .bind (Tasks.accepts_update _ _) fun _ => .done _

theorem accepts_buffered (actual : Float) : Accepts (buffered p actual) :=
  .bind (accepts_need p _) fun _ => .bind (.ofExcept fun _ => isRejection_of_quotient) fun _ => .done _

theorem accepts_estimates : Accepts (estimates p t o) := by
  refine .bind (accepts_trackedHours o) fun tracked => .bind (accepts_need p _) fun given => ?_
  split
  · split
    · exact .done _
    · split
      · split
        · exact .done _
        · exact .bind (accepts_buffered p _) fun new => accepts_setEstimate t new
      · exact .bind (accepts_buffered p _) fun new => accepts_setEstimate t new
  · exact accepts_setEstimate t _

end Change

namespace Relation

open Parameters

variable (p : Parameters) (t : Task) (o : Occasion)

theorem accepts_assign : Accepts (assign p t o) :=
  .bind (accepts_need p _) fun _ => .bind (Tasks.accepts_createAssignment _ _ _) fun _ => .done _

theorem accepts_depend : Accepts (depend p t o) := by
  refine .bind (accepts_need p _) fun task => .bind (accepts_need p _) fun other => ?_
  dsimp only
  split
  · exact .bind (.fail rfl) fun _ => .bind (Tasks.accepts_createDependency _ _) fun id => .done _
  · exact .bind (Tasks.accepts_createDependency _ _) fun id => .done _

/-- The date that related tasks are set to, null if another field is. -/
def relatedDate (p : Parameters) : Value :=
  if (p.given "field").same (.str "due_date") then p.given "value" else .null

theorem dated_updateAll : Dated o (relatedDate p) (updateAll p t o) := by
  refine .after_need p _ fun relation => .of_need fun given hgiven => .of_need fun field hfield => ?_
  have hrest : ∀ value : Value, Accepts (do
      let byClient := (kind relation t).same (.str "client")
      if byClient && (t.clientId.getD "").isEmpty then
        return [("updated_count", .int 0), ("skipped", .bool true),
          ("reason", .str "Task has no client")]
      else
        let ids ← Tasks.updateRelated field.text value t.id (related t byClient)
        return [("relationship", kind relation t), ("field", field), ("value", value),
          ("updated_task_ids", .ofTexts ids), ("updated_count", .count ids)]) := by
    intro value
    dsimp only
    split
    · exact .done _
    · exact .bind (Tasks.accepts_updateRelated _ _ _ _) fun ids => .done _
  rw [relatedDate, hfield, hgiven]
  dsimp only
  split
  · exact .of_date hrest
  · exact .of_accepts (.bind (.done _) hrest)

theorem accepts_start : Accepts (start t) := by
  unfold start
  split
  · exact .bind (Tasks.accepts_update _ _) fun _ => .done _
  · exact .done _

theorem accepts_startDependents : Accepts (startDependents p t o) := by
  unfold startDependents
  split
  · exact .done _
  · refine .bind (accepts_need p _) fun given => ?_
    split
    · exact .done _
    · refine .bind (Tasks.accepts_dependents _) fun tasks => ?_
      exact .bind (.each fun task _ => accepts_start task) fun ids => .done _

end Relation

namespace Telling

open Parameters

variable (p : Parameters) (t : Task) (o : Occasion)

theorem accepts_link (id : String) : Accepts (o.link id) := by
  refine .ofExcept fun f hf => ?_
  cases hlink : (Link.render o.settings.taskUrl id).map Value.str with
  | ok v =>
    rw [hlink] at hf
    cases hf
  | error fault =>
    rw [hlink] at hf
    cases hf
    rfl

theorem accepts_tell (recipients : List Value) (title message url : Value) :
    Accepts (tell recipients title message url t o) := by
  refine .bind (.each fun user _ => ?_) fun sent => .done _
  have hrest : ∀ url : Value, Accepts (do
      return (user, ← Inbox.notify o.settings user title message (some t.id) url)) :=
    fun url => .bind (Inbox.accepts_notify _ _ _ _ _ _) fun _ => .done _
  dsimp only
  split
  · exact .bind (.done _) hrest
  · exact .bind (accepts_link o _) hrest

theorem accepts_notification : Accepts (notification p t o) := by
  refine .bind (accepts_need p _) fun title => .bind (accepts_need p _) fun message => ?_
  refine .bind (accepts_need p _) fun url => .bind (accepts_tell t o _ _ _ _) fun reached => ?_
  exact .bind (accepts_need p _) fun type => .done _

theorem accepts_summary : Accepts (ofExcept (Summary.of t o)) := by
  refine .ofExcept fun f hf => ?_
  unfold Summary.of Summary.minutesOf at hf
  split at hf
  · cases hf
  · split at hf <;> cases hf
    rfl

theorem accepts_report : Accepts (report p t o) :=
  .bind (accepts_summary t o) fun _ => .bind (accepts_need p _) fun _ =>
    .bind (accepts_tell t o _ _ _ _) fun _ => .done _

theorem dated_reminder :
    Dated o ((p.given "remind_at").orElse (.str o.settings.reminderDue)) (reminder p t o) := by
  refine .of_need fun spec hspec => ?_
  rw [hspec]
  refine .of_date fun moment => ?_
  refine .bind (accepts_need p _) fun message => .bind (accepts_need p _) fun title => ?_
  exact .bind (accepts_tell t o _ _ _ _) fun reached => .done _

theorem accepts_activity : Accepts (activity p t o) := by
  refine .bind (accepts_need p _) fun given => .bind (.ofExcept fun f hf => ?_) fun noted => ?_
  · unfold metadata at hf
    split at hf
    · split at hf <;> cases hf
    · cases hf
      rfl
  · refine .bind_attempt (R := fun _ => True) (fun _ _ _ => trivial) (fun id => .done _) fun f _ => ?_
    exact .done _

end Telling

namespace ActionType

/-- The date that an action resolves first, null if it resolves none. -/
def date (s : Settings) (p : Parameters) : ActionType → Value
  | .createTask | .reschedule => p.given "due_date"
  | .createFollowUp => (p.given "due_date").orElse (.str s.followUpDue)
  | .createReminder => (p.given "remind_at").orElse (.str s.reminderDue)
  | .updateRelatedTasks => Relation.relatedDate p
  | _ => .null

/-- The dates that an action resolves. -/
def dates (s : Settings) (p : Parameters) : ActionType → List Value
  | .createSubtasks => Creation.subtaskDates p
  | type => [type.date s p]

variable (p : Parameters) (t : Task) (o : Occasion)

/-- An action other than a list of subtasks is rejected by its executor only for its date, and
before anything is written. -/
theorem dated_run {type : ActionType} (h : type ≠ .createSubtasks) :
    Dated o (type.date o.settings p) (type.run p t o) := by
  cases type with
  | createTask => exact Creation.dated_task p t o
  | createFollowUp => exact Creation.dated_followUp p t o
  | createSubtasks => exact absurd rfl h
  | updateStatus => exact .of_accepts (Change.accepts_status p t o)
  | updatePriority => exact .of_accepts (Change.accepts_priority p t o)
  | reschedule => exact Change.dated_reschedule p t o
  | updateEstimates => exact .of_accepts (Change.accepts_estimates p t o)
  | assignUser => exact .of_accepts (Relation.accepts_assign p t o)
  | addDependency => exact .of_accepts (Relation.accepts_depend p t o)
  | updateRelatedTasks => exact Relation.dated_updateAll p t o
  | updateDependencies => exact .of_accepts (Relation.accepts_startDependents p t o)
  | sendNotification => exact .of_accepts (Telling.accepts_notification p t o)
  | createReport => exact .of_accepts (Telling.accepts_report p t o)
  | createReminder => exact Telling.dated_reminder p t o
  | logActivity => exact .of_accepts (Telling.accepts_activity p t o)

/-- An executor whose dates settle rejects nothing. -/
theorem accepts_run {type : ActionType}
    (h : ∀ spec ∈ type.dates o.settings p, DueDate.Settles o.now spec) :
    Accepts (type.run p t o) := by
  by_cases htype : type = .createSubtasks
  · subst htype
    exact Creation.accepts_subtasks p t o h
  · have hdates : type.dates o.settings p = [type.date o.settings p] := by
      cases type <;> first | rfl | exact absurd rfl htype
    rw [hdates] at h
    exact (dated_run p t o htype).accepts (h _ List.mem_cons_self)

end ActionType

end TaskAutomation
