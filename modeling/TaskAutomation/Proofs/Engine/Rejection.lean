import TaskAutomation.Proofs.Action.Rejection
import TaskAutomation.Proofs.Engine.Accounting

/-!
# What a rejected action leaves behind

* `Engine.run_dispatch_error` : a dispatch fails before its executor runs, with the world as it was,
  or as its executor does in this world;
* `SubtasksLeft p t o w w'` : subtasks were made up to one whose date does not settle, and stay;
* `Engine.rejected_store` : an action that is rejected leaves the store as it was, but for subtasks
  in front of a rejected one; `Engine.rejected_subtask_left` : a list of two of which the first stays.
-/

namespace TaskAutomation

open Check Program

/-- Subtasks were made up to one whose date does not settle, and nothing was written after them. -/
def SubtasksLeft (p : Parameters) (t : Task) (o : Occasion) (w w' : World) : Prop :=
  ∃ made bad rest ids w₁, Creation.items (p.given "subtasks") = .ok (made ++ bad :: rest)
    ∧ made ≠ [] ∧ ¬DueDate.Settles o.now (Creation.subtaskDate bad)
    ∧ (each (Creation.subtaskOf (p.declares "subtasks") t o) made).run w = (.ok ids, w₁)
    ∧ w'.store = w₁.store

/-- A rejected list of subtasks leaves those in front of the one whose date does not settle. -/
theorem Creation.rejected_subtasks {p : Parameters} {t : Task} {o : Occasion} {w w' : World}
    {f : Failure} (h : (subtasks p t o).run w = (.error f, w')) (hf : f.isRejection = true) :
    w'.store = w.store ∨ SubtasksLeft p t o w w' := by
  unfold subtasks at h
  rcases hneed : p.get? "subtasks" with _ | v
  · have hfail : p.need "subtasks" = .fail (.noAttribute p.recordName "subtasks") := by
      rw [Parameters.need, hneed]
    rw [hfail] at h
    cases h
    exact .inl rfl
  have hdone : p.need "subtasks" = .done v := by
    rw [Parameters.need, hneed]
    rfl
  rw [hdone, run_bind_ok (run_done v w), run_bind, run_ofExcept] at h
  rcases hitems : items v with f' | specs
  · rw [hitems] at h
    cases h
    exact .inl rfl
  rw [hitems] at h
  simp only [run_bind] at h
  rcases heach : (each (subtaskOf (p.declares "subtasks") t o) specs).run w with ⟨f' | ids, w₂⟩
  · rw [heach] at h
    cases h
    obtain ⟨made, bad, rest, ids, w₁, rfl, hmade, hbad⟩ := run_each_error heach
    have hdated := dated_subtaskOf t o (p.declares "subtasks") bad
    have hbad' : ((subtaskOf (p.declares "subtasks") t o bad).run w₁).1 = .error f := by rw [hbad]
    have hstore := hdated.first w₁ f hbad' hf
    rw [hbad] at hstore
    by_cases hnil : made = []
    · subst hnil
      cases hmade
      exact .inl hstore
    · rw [← Parameters.given_of_get? hneed] at hitems
      exact .inr ⟨made, bad, rest, ids, w₁, hitems, hnil, (hdated.throws.run hbad' hf).2, hmade, hstore⟩
  · rw [heach] at h
    cases h

namespace Engine

variable {e : Engine} {a : Action} {task : Task} {context : Fields} {rule : Option Rule}
  {moment : Option Moment} {w w' : World} {f : Failure}

/-- An executor's outcome in a world, a failure as that of its action. -/
theorem run_executor (executor : Program Fields) (w : World) :
    (do match ← attempt executor with
      | .ok result => return result
      | .error f => .fail f.ofExecutor).run w
      = ((executor.run w).1.mapError Failure.ofExecutor, (executor.run w).2) := by
  rw [run_bind_ok (run_attempt executor w)]
  cases (executor.run w).1 <;> rfl

/-- A dispatch is out of reach, or fails for its type or its parameters, with the world as it was; or
it is its executor. -/
theorem run_dispatch_cases (e : Engine) (a : Action) (task : Task) (context : Fields)
    (rule : Option Rule) (moment : Option Moment) (w : World) :
    (∃ f, (e.dispatch a task context rule moment).run w = (.error f, w))
      ∨ ∃ type p ended, e.registry.lookup a.type = some type
        ∧ Parameters.read a.type { now := w.clock } (a.filled task context) = .ok p
        ∧ (type.run p task ⟨e.settings, moment.getD w.clock, rule, context⟩).run w = ended
        ∧ (e.dispatch a task context rule moment).run w
          = (ended.1.mapError Failure.ofExecutor, ended.2) := by
  unfold dispatch
  rcases Operation.run_guard_cases w with ⟨message, hout⟩ | hbody
  · exact .inl ⟨_, hout⟩
  rw [hbody]
  cases htype : e.registry.lookup a.type with
  | none => exact .inl ⟨_, rfl⟩
  | some type =>
    dsimp only
    unfold parameters
    simp only [run_bind, run_setting]
    cases hread : Parameters.read a.type { now := w.clock } (a.filled task context) with
    | issues found => exact .inl ⟨_, rfl⟩
    | ok p =>
      refine .inr ⟨type, p, _, rfl, rfl, rfl, ?_⟩
      cases moment with
      | some m => exact run_executor _ w
      | none => exact run_executor _ w

/-- A dispatch whose parameters are read is its executor. -/
theorem run_dispatch_of_read (ho : w.outages = []) {type : ActionType} {p : Parameters}
    {ended : Except Failure Fields × World} (htype : e.registry.lookup a.type = some type)
    (hread : Parameters.read a.type { now := w.clock } (a.filled task context) = .ok p)
    (hended : (type.run p task ⟨e.settings, moment.getD w.clock, rule, context⟩).run w = ended) :
    (e.dispatch a task context rule moment).run w =
      (ended.1.mapError Failure.ofExecutor, ended.2) := by
  subst hended
  unfold dispatch parameters
  rw [Operation.run_guard ho, htype]
  simp only [run_bind, run_setting, hread]
  cases moment with
  | some m => exact run_executor _ w
  | none => exact run_executor _ w

/-- A dispatch that fails did so before its executor ran, or because its executor failed. -/
theorem run_dispatch_error (h : (e.dispatch a task context rule moment).run w = (.error f, w')) :
    w' = w ∨ ∃ type p f', e.registry.lookup a.type = some type
      ∧ Parameters.read a.type { now := w.clock } (a.filled task context) = .ok p
      ∧ (type.run p task ⟨e.settings, moment.getD w.clock, rule, context⟩).run w = (.error f', w')
      ∧ f = f'.ofExecutor := by
  rcases run_dispatch_cases e a task context rule moment w with
    ⟨f₁, hfail⟩ | ⟨type, p, ⟨outcome, w₁⟩, htype, hread, hended, hrun⟩
  · rw [hfail] at h
    cases h
    exact .inl rfl
  · rw [hrun] at h
    cases outcome with
    | ok result => cases h
    | error f' =>
      cases h
      exact .inr ⟨type, p, f', htype, hread, hended, rfl⟩

/-- An action that is rejected leaves the store as it was, unless it makes a list of subtasks: then
those in front of the one whose date does not settle have been made. -/
theorem rejected_store (h : (e.dispatch a task context rule moment).run w = (.error f, w'))
    (hf : f.isRejection = true) :
    w'.store = w.store ∨ ∃ p, e.registry.lookup a.type = some .createSubtasks
      ∧ Parameters.read a.type { now := w.clock } (a.filled task context) = .ok p
      ∧ SubtasksLeft p task ⟨e.settings, moment.getD w.clock, rule, context⟩ w w' := by
  rcases run_dispatch_error h with rfl | ⟨type, p, f', htype, hread, hrun, rfl⟩
  · exact .inl rfl
  rw [Failure.isRejection_ofExecutor] at hf
  by_cases hsubtasks : type = .createSubtasks
  · subst hsubtasks
    refine (Creation.rejected_subtasks hrun hf).imp_right fun hleft => ?_
    exact ⟨p, htype, hread, hleft⟩
  · have hdated := ActionType.dated_run p task
      ⟨e.settings, moment.getD w.clock, rule, context⟩ hsubtasks
    have hstore := hdated.first w f' (by rw [hrun]) hf
    rw [hrun] at hstore
    exact .inl hstore

/-- A world with nothing in its store. -/
def blankWorld : World := { clock := Moment.ofInstant 0 }

/-- A task whose date stands for no moment. -/
def somedayTask : Action := ⟨"create_task", [("title", .str "Call"), ("due_date", .str "someday")]⟩

/-- It is rejected, and the store is as empty as before. -/
theorem rejected_store_of_task :
    ∃ f w', (dispatch {} somedayTask overdueTask.task [] none none).run blankWorld = (.error f, w')
      ∧ f.isRejection = true ∧ w'.store = blankWorld.store := by
  obtain ⟨f, hfail, hf⟩ : ∃ f, ((dispatch {} somedayTask overdueTask.task [] none none).run
      blankWorld).1 = .error f ∧ f.isRejection = true :=
    error_of_isRejected (by decide +kernel)
  refine ⟨f, _, Prod.ext hfail rfl, hf, ?_⟩
  rcases rejected_store (Prod.ext hfail rfl) hf with hstore | ⟨p, htype, -⟩
  · exact hstore
  · cases htype

/-- Two subtasks, the second of which has a date that stands for no moment. -/
def somedaySubtasks : Action := ⟨"create_subtasks", [("subtasks", .list [.obj [("title", .str "Call")],
  .obj [("title", .str "Write"), ("due_date", .str "someday")]])]⟩

/-- They are rejected, but the first one has been stored. -/
theorem rejected_subtask_left :
    ∃ f w', (dispatch {} somedaySubtasks overdueTask.task [] none none).run blankWorld
        = (.error f, w')
      ∧ f.isRejection = true ∧ w'.store ≠ blankWorld.store := by
  obtain ⟨f, hfail, hf⟩ : ∃ f, ((dispatch {} somedaySubtasks overdueTask.task [] none none).run
      blankWorld).1 = .error f ∧ f.isRejection = true :=
    error_of_isRejected (by decide +kernel)
  refine ⟨f, _, Prod.ext hfail rfl, hf, fun hsame => ?_⟩
  have hstored : (((dispatch {} somedaySubtasks overdueTask.task [] none none).run
      blankWorld).2.store.slots.lookup (.taskDetail "task_000000000001")).isSome = true := by
    decide +kernel
  rw [hsame] at hstored
  cases hstored

end Engine

end TaskAutomation
