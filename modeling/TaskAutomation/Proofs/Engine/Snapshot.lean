import TaskAutomation.Proofs.Action.Parameters
import TaskAutomation.Proofs.DueDate
import TaskAutomation.Proofs.Engine.Rejection
import TaskAutomation.Proofs.Tasks.Field

/-!
# Actions that set one field of a task

The task that such an action is given may be older than the stored task of its id. It does not matter: the
action writes the one field to what is stored.

* `Tasks.leavesOn_update` : a change of a task that fails has written nothing;
* `RelatedField.Telling x new` : a task that has the field set to the value shows this value;
* `Alters id x told p` : the program reads, and then it fails, skips, or sets one field of the stored task
  and tells the new value; `ActionType.alters_run` : so do the four types of action that set a field
  (`ActionType.sets?`);
* `Tasks.Altered w w' x old t` : a stored task has one field and the time of its last change set, and
  nothing else in the store has changed but its place among the due tasks with its due date;
* `Engine.field_set_exact` : what becomes of such an action.
-/

namespace TaskAutomation

open Check Program Tasks

/-! ## Changes that fail -/

namespace Tasks

theorem succeeds_move (id : String) (key : String → Key) (old new : Option String) :
    (move id key old new).Succeeds fun _ => True := by
  rw [move_eq]
  refine .bind (Q := fun _ => True) ?_ fun _ _ => ?_
  · unfold leave
    split
    · split
      · exact .call _
      · exact .done trivial
    · exact .done trivial
  · unfold join
    split
    · split
      · exact .call _
      · exact .done trivial
    · exact .done trivial

section

variable {bad : Except Failure Task → Prop} (h : ∀ t, ¬ bad (.ok t))
include h

/-- A write of a task fails only where the store is out of reach. -/
theorem leavesOn_save (t : Task) (previous : Option Task) : (save t previous).LeavesOn bad := by
  have hmoves : (moves t previous).Succeeds fun t => ¬ bad (.ok t) :=
    .bind (succeeds_move _ _ _ _) fun _ _ => .bind (succeeds_move _ _ _ _) fun _ _ => .done (h t)
  refine .guarded (.of_succeeds (.bind (.call _) fun _ _ => .bind (.call _) fun _ _ => ?_))
  dsimp only
  split
  · exact .bind (.call _) fun _ _ => hmoves
  · exact .bind (.call _) fun _ _ => hmoves

/-- A change of a task fails before anything is written. -/
theorem leavesOn_update (id : String) (fields : Fields) : (update id fields).LeavesOn bad := by
  refine .guarded (.after_inert (discreet_get id).touches.inert fun existing => ?_)
  cases existing with
  | none => exact .of_inert (.fail _)
  | some existing =>
    refine .after_inert (.setting trivial) fun s => .after_inert (.ofChecked _ _) fun t => ?_
    exact leavesOn_save h t (some existing)

end

end Tasks

/-! ## What is told -/

namespace Tasks.RelatedField

/-- A task that has the field set to the value shows this value. -/
def Telling (x : RelatedField) (new : Value) : Prop :=
  ∀ s change old, x.set s new = .ok change → x.shown (change old) = new

theorem telling_status (new : Value) : RelatedField.status.Telling new := by
  intro s change old h
  obtain ⟨a, ha, rfl⟩ := Checked.map_eq_ok.mp h
  exact (eq_of_choice ha).symm

theorem telling_priority (new : Value) : RelatedField.priority.Telling new := by
  intro s change old h
  obtain ⟨a, ha, rfl⟩ := Checked.map_eq_ok.mp h
  exact (eq_of_choice ha).symm

theorem telling_dueDate (m? : Option Moment) (h : ∀ m ∈ m?, m.InUtc) :
    RelatedField.dueDate.Telling (Change.momentValue m?) := by
  intro s change old hset
  obtain ⟨due, hdue, rfl⟩ := Checked.map_eq_ok.mp hset
  cases m? with
  | none =>
    cases hdue
    rfl
  | some m =>
    obtain ⟨m', hm', rfl⟩ := Checked.map_eq_ok.mp hdue
    rw [Change.momentValue, momentInUtc_iso (h m rfl).shown (h m rfl).utc] at hm'
    cases hm'
    rfl

theorem telling_estimatedHours (y : Float) : RelatedField.estimatedHours.Telling (.float y) := by
  intro s change old hset
  obtain ⟨hours, hhours, rfl⟩ := Checked.map_eq_ok.mp hset
  obtain ⟨z, hz, rfl⟩ := Checked.map_eq_ok.mp hhours
  obtain ⟨z', hnumber, hbounded⟩ := Checked.andThen_eq_ok.mp hz
  cases hnumber
  split at hbounded
  · cases hbounded
  · cases hbounded
    rfl

/-- The hours of a task are finite as far as they are shown by a finite value. -/
theorem isFinite_estimatedHours {x : RelatedField} {s : Setting} {new : Value} {change : Task → Task}
    {old : Task} (hset : x.set s new = .ok change) (hnew : x.Telling new) (hfinite : new.allFinite = true)
    (hold : ∀ y ∈ old.estimatedHours, Decimal.isFinite y = true) :
    ∀ y ∈ (change old).estimatedHours, Decimal.isFinite y = true := by
  have hshown := hnew s change old hset
  unfold set at hset
  cases x with
  | estimatedHours =>
    intro y hy
    rw [shown, Option.mem_def.mp hy] at hshown
    rw [← hshown] at hfinite
    exact hfinite
  | _ =>
    obtain ⟨a, -, rfl⟩ := Checked.map_eq_ok.mp hset
    exact hold

end Tasks.RelatedField

/-! ## Executors -/

/-- The action failed, or it was skipped. -/
def Undone (outcome : Except Failure Fields) : Prop :=
  ∀ result, outcome = .ok result → result.has "skipped" = true

/-- The program only reads, and then it fails, skips, or sets one field of the stored task of an id and
tells the new value. -/
inductive Alters (id : String) (x : RelatedField) (told : String) : Program Fields → Prop where
  | first {α : Type} {R : α → Prop} {p : Program α} {g : α → Program Fields}
      (hp : p.Within fun _ => False) (hyields : p.Yields R) (hg : ∀ a, R a → Alters id x told (g a)) :
      Alters id x told (p >>= g)
  | skip {result : Fields} (h : result.has "skipped" = true) : Alters id x told (.done result)
  | set {new : Value} {result : Fields} (hnew : x.Telling new) (htold : result.get? told = some new)
      (hdone : result.has "skipped" = false) :
      Alters id x told (do let _ ← Tasks.update id [(x.name, new)]; return result)

namespace Alters

variable {id told : String} {x : RelatedField} {p : Program Fields} {w w' : World} {result : Fields}

theorem leavesOn (h : Alters id x told p) : p.LeavesOn Undone := by
  induction h with
  | first hp hyields _ ih => exact .after_inert_of_yields (hp.mono fun _ => False.elim) hyields ih
  | skip h => exact .of_inert (.done _)
  | set _ _ hdone =>
    refine .map (fun _ => rfl) (leavesOn_update (fun t hundone => ?_) _ _)
    exact absurd (hundone _ rfl) (ne_true_of_eq_false hdone)

/-- A result that is not skipped comes from a change of the stored task. -/
theorem run (h : Alters id x told p) (hrun : p.run w = (.ok result, w'))
    (hdone : result.has "skipped" = false) :
    ∃ new t, (Tasks.update id [(x.name, new)]).run w = (.ok t, w') ∧ result.get? told = some new
      ∧ x.Telling new := by
  induction h with
  | @first _ _ p _ hp hyields _ ih =>
    have hsame := run_of_silent hp w
    rcases hfirst : p.run w with ⟨f | a, w₁⟩
    · rw [run_bind, hfirst] at hrun
      cases hrun
    · rw [hfirst] at hsame
      subst hsame
      rw [run_bind_ok hfirst] at hrun
      exact ih a (hyields.run (by rw [hfirst])) hrun
  | skip h =>
    cases hrun
    rw [h] at hdone
    cases hdone
  | @set new result hnew htold _ =>
    rcases hupdate : (Tasks.update id [(x.name, new)]).run w with ⟨f | t, w₁⟩
    · rw [run_bind, hupdate] at hrun
      cases hrun
    · rw [run_bind_ok hupdate] at hrun
      cases hrun
      exact ⟨new, t, hupdate, htold, hnew⟩

end Alters

theorem Occasion.yields_dueDate (o : Occasion) (spec : Value) : (o.dueDate spec).Yields fun due =>
    ∃ m?, due = Change.momentValue m? ∧ ∀ m ∈ m?, Moment.InUtc m := by
  unfold dueDate
  split
  · exact .done ⟨none, rfl, nofun⟩
  · split
    · next m hm =>
      refine .done ⟨some m, rfl, ?_⟩
      rintro _ ⟨⟩
      exact DueDate.inUtc_of_resolve hm
    · rintro log _ ⟨-, ⟨⟩⟩

/-- The hours that are given are read as a number, or as null. -/
theorem Parameters.estimatedHours_of_read {s : Setting} {f : Fields} {p : Parameters}
    (h : readFor .updateEstimates s f = .ok p) {v : Value} (hv : p.get? "estimated_hours" = some v) :
    v = .null ∨ ∃ y, v = .float y := by
  obtain ⟨fields, hall, hp⟩ := Checked.andThen_eq_ok.mp h
  cases hp
  obtain ⟨v', hv', hread⟩ := Parameter.get?_of_readAll hall (ActionType.nodup_parameters _)
    (p := Parameter.hoursOrNull "estimated_hours") List.mem_cons_self
  cases hv.symm.trans hv'
  rcases get?_of_optional hread with ⟨given, -, hchecked⟩ | ⟨-, rfl⟩
  · obtain ⟨hours, -, rfl⟩ := Checked.map_eq_ok.mp hchecked
    cases hours with
    | none => exact .inl rfl
    | some y => exact .inr ⟨y, rfl⟩
  · exact .inl rfl

namespace Change

variable (p : Parameters) (t : Task) (o : Occasion)

theorem alters_status : Alters t.id .status "new_status" (status p t o) :=
  .first (R := fun _ => True) (p.within_word _) (fun _ _ _ => trivial) fun new _ =>
    .set (RelatedField.telling_status new) rfl rfl

theorem alters_priority : Alters t.id .priority "new_priority" (priority p t o) :=
  .first (R := fun _ => True) (p.within_word _) (fun _ _ _ => trivial) fun new _ =>
    .set (RelatedField.telling_priority new) rfl rfl

theorem alters_reschedule : Alters t.id .dueDate "new_due_date" (reschedule p t o) := by
  refine .first (p.within_need _) (p.yields_need _) fun spec _ => ?_
  refine .first (o.within_dueDate spec) (o.yields_dueDate spec) ?_
  rintro _ ⟨m?, rfl, hm⟩
  exact .set (RelatedField.telling_dueDate m? hm) rfl rfl

theorem alters_setEstimate (y : Float) :
    Alters t.id .estimatedHours "new_estimated_hours" (setEstimate t (.float y)) :=
  .set (RelatedField.telling_estimatedHours y) rfl rfl

theorem alters_buffered (actual : Float) : Alters t.id .estimatedHours "new_estimated_hours" (do
    setEstimate t (← buffered p actual)) := by
  refine .first (R := fun v => ∃ y, v = .float y) ?_ ?_ ?_
  · exact .bind (p.within_need _) fun _ => .bind (.ofExcept _) fun _ => .done _
  · exact .after fun _ => .after fun share => .done ⟨_, rfl⟩
  · rintro _ ⟨y, rfl⟩
    exact alters_setEstimate t y

theorem alters_estimates
    (hgiven : ∀ v, p.get? "estimated_hours" = some v → v = .null ∨ ∃ y, v = .float y) :
    Alters t.id .estimatedHours "new_estimated_hours" (estimates p t o) := by
  refine .first (R := fun _ => True) (.ofExcept _) (fun _ _ _ => trivial) fun tracked _ => ?_
  refine .first (p.within_need _) (p.yields_need _) fun given hv => ?_
  rcases hgiven given hv with rfl | ⟨y, rfl⟩
  · dsimp only
    split
    · exact .skip rfl
    · split
      · split
        · exact .skip rfl
        · exact alters_buffered p t _
      · exact alters_buffered p t _
  · exact alters_setEstimate t y

end Change

namespace ActionType

/-- The field that an action sets, with the name under which its result tells the new value. -/
def sets? : ActionType → Option (RelatedField × String)
  | .updateStatus => some (.status, "new_status")
  | .updatePriority => some (.priority, "new_priority")
  | .reschedule => some (.dueDate, "new_due_date")
  | .updateEstimates => some (.estimatedHours, "new_estimated_hours")
  | _ => none

theorem alters_run {type : ActionType} {x : RelatedField} {told : String}
    (hsets : type.sets? = some (x, told)) {s : Setting} {f : Fields} {p : Parameters}
    (hread : Parameters.readFor type s f = .ok p) (t : Task) (o : Occasion) :
    Alters t.id x told (type.run p t o) := by
  cases type <;> cases hsets
  case updateStatus => exact Change.alters_status p t o
  case updatePriority => exact Change.alters_priority p t o
  case reschedule => exact Change.alters_reschedule p t o
  case updateEstimates =>
    exact Change.alters_estimates p t o fun v hv => Parameters.estimatedHours_of_read hread hv

end ActionType

/-! ## The stored task -/

namespace Tasks

variable {w w' : World} {m : String → Option Task} {ds : List (String × String)} {id : String}
  {x : RelatedField} {new : Value}

/-- A stored task has one field set, and the time of its last change. Of the rest of the store at most its
place among the due tasks of its owner has changed, and this only with its due date. -/
structure Altered (w w' : World) (x : RelatedField) (old t : Task) : Prop where
  before : Stored w old
  after : Stored w' t
  alone : x.Alone old t
  changed : t.updatedAt = w.clock
  due : ∃ members members', w.store.Keeps (.taskDue old.userId) (.ordered members)
    ∧ w'.store.Keeps (.taskDue old.userId) (.ordered members')
    ∧ ∀ a, a ∈ members' ↔
      if a.member = old.id then ∃ due, t.dueDate = some due ∧ a.score = due.timestamp else a ∈ members
  frame : ∀ k, k ≠ .taskDetail old.id → (k = .taskDue old.userId → x ≠ .dueDate) →
    w'.store.slots.lookup k = w.store.slots.lookup k

/-- A change of one field to a finite value is one of the stored task alone. -/
theorem InUse.altered (h : InUse w m ds) {t : Task} (hrun : (update id [(x.name, new)]).run w = (.ok t, w'))
    (hnew : x.Telling new) (hfinite : new.allFinite = true) :
    ∃ old t', old.id = id ∧ x.shown t' = new ∧ Altered w w' x old t' := by
  obtain ⟨old, hm, hrevise⟩ := h.settled.documents.revise_of_update h.outages (by rw [hrun])
  rw [h.settled.documents.revise_field hm (h.settled.storable id old hm) h.clock] at hrevise
  obtain ⟨change, hset, -⟩ := Checked.map_eq_ok.mp hrevise
  rw [Checked.under_eq_ok] at hset
  obtain ⟨w'', hrun', hsaved, hsettled, hframe⟩ := h.settled.update_field h.outages h.clock hm hset
  rw [hrun] at hrun'
  cases hrun'
  have hid := h.settled.documents.id_eq hm
  have hkin := RelatedField.kin_of_set hset old w.clock
  have hhours := RelatedField.isFinite_estimatedHours hset hnew hfinite
    (h.settled.storable id old hm).estimatedHours
  rw [h.settled.written_eq h.clock hm hset hhours] at hsettled
  refine ⟨old, _, hid, hnew _ _ (old.changedAt w.clock) hset, ?_⟩
  rw [set_changedAt hset]
  refine ⟨?_, ?_, RelatedField.alone_of_set hset old w.clock, rfl, ?_, fun k hdetail hdue => ?_⟩
  · exact (h.settled.documents.stored_iff h.outages old).mpr (hid ▸ hm)
  · refine (hsettled.documents.stored_iff ((outages_of_run hrun).trans h.outages) _).mpr ?_
    rw [hkin.id, hid, Function.update_self]
  · obtain ⟨members, hkeeps, -⟩ := h.settled.due old.userId
    have hput := hsaved.due (hkin.owner ▸ hkeeps)
    rw [hkin.owner] at hput
    refine ⟨members, _, hkeeps, hput, fun a => ?_⟩
    rw [mem_reindex, hkin.id]
  · exact hframe k (hid ▸ hdetail) fun heq => RelatedField.dueDate_of_set hset (hdue heq) old

end Tasks

namespace Engine

variable {e : Engine} {a : Action} {t : Task} {context : Fields} {rule : Option Rule}
  {moment : Option Moment} {w w' : World} {type : ActionType} {x : RelatedField} {told : String}
  {outcome : Except Failure Fields}

/-- An action that sets a field of a task leaves the store if it fails or is skipped. Otherwise it tells the
new value, and if this is finite the stored task of the id has the field set to it, whatever the action
was given as the task, and nothing else is changed. -/
theorem field_set_exact (htype : e.registry.lookup a.type = some type) (hname : a.type = type.name)
    (hsets : type.sets? = some (x, told))
    (hrun : (e.dispatch a t context rule moment).run w = (outcome, w')) :
    (Undone outcome → w'.store = w.store) ∧
    ∀ ds result, Used w ds → outcome = .ok result → result.has "skipped" = false →
      ∃ new, result.get? told = some new ∧ (new.allFinite = true →
        ∃ old t', old.id = t.id ∧ x.shown t' = new ∧ Altered w w' x old t') := by
  rcases run_dispatch_cases e a t context rule moment w with
    ⟨f, hfail⟩ | ⟨type', p, ⟨ended, w₁⟩, htype', hread, hended, hdispatch⟩
  · rw [hrun] at hfail
    cases hfail
    exact ⟨fun _ => rfl, nofun⟩
  cases htype.symm.trans htype'
  rw [hrun] at hdispatch
  cases hdispatch
  have hread' : Parameters.readFor type { now := w.clock } (a.filled t context) = .ok p := by
    rw [hname] at hread
    cases type <;> exact hread
  have halters := ActionType.alters_run hsets hread' t ⟨e.settings, moment.getD w.clock, rule, context⟩
  refine ⟨fun hundone => ?_, fun ds result hused hok hdone => ?_⟩
  · have hstore := halters.leavesOn w
    rw [hended] at hstore
    refine hstore fun result hresult => hundone result ?_
    rw [show ended = .ok result from hresult]
    rfl
  · obtain ⟨m, hm⟩ := hused.inUse
    cases ended with
    | error f => cases hok
    | ok found =>
      cases hok
      obtain ⟨new, t', hupdate, htold, hnew⟩ := halters.run hended hdone
      exact ⟨new, htold, hm.altered hupdate hnew⟩

/-- The task of the world as it was before it got its title and its status. -/
def staleTask : Task := { sampleTask "task_1" 5 with title := "", status := .completed }

def postpone : Action := ⟨"reschedule", [("due_date", .str "+3 days")]⟩

/-- The stored task is put off, and keeps its title. -/
theorem field_set_exact_of_stale : ∃ result new w' t',
    (dispatch {} postpone staleTask [] none none).run heldWorld = (.ok result, w')
      ∧ result.get? "new_due_date" = some new ∧ RelatedField.dueDate.shown t' = new
      ∧ Altered heldWorld w' .dueDate (sampleTask "task_1" 1) t' ∧ t'.title = "Call" := by
  have hanswer : (((dispatch {} postpone staleTask [] none none).run heldWorld).1.toOption.map
      fun r => (r.has "skipped", (r.get? "new_due_date").map Value.allFinite)) = some (false, some true) := by
    decide +kernel
  rcases hrun : (dispatch {} postpone staleTask [] none none).run heldWorld with ⟨f | result, w'⟩
  · rw [hrun] at hanswer
    cases hanswer
  · rw [hrun] at hanswer
    obtain ⟨hdone, hnew⟩ := Prod.mk.inj (Option.some.inj hanswer)
    obtain ⟨hused, huse⟩ := heldWorld_inUse
    obtain ⟨new, htold, haltered⟩ :=
      (field_set_exact (e := {}) rfl rfl rfl hrun).2 [] result hused rfl hdone
    rw [htold] at hnew
    obtain ⟨old, t', -, hshown, haltered⟩ := haltered (Option.some.inj hnew)
    obtain rfl := (huse.stored_iff_eq rfl).mp haltered.before
    exact ⟨result, new, w', t', rfl, htold, hshown, haltered, congrArg Task.title haltered.alone⟩

end Engine

end TaskAutomation
