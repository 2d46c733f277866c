import TaskAutomation.Proofs.Condition.Equality

/-!
# Changes seen from both sides

* `withPrevious context previous` : a context that tells what the task was before; `NoPrevious` : one
  that does not;
* `resolve_task`, `previous?_task` : a path of the task leads to the same place in the task and in what
  it was before;
* `changes_mirror` : that a value has changed to another is, with the two tasks exchanged, that it has
  changed from it; not both at once, and never where the two values are equal.
-/

namespace TaskAutomation.Condition

/-- The context with the task as it was before. -/
def withPrevious (context previous : Fields) : Fields := context.put "previous_task" (.obj previous)

/-- The context tells of no task before, or that there was none. -/
def NoPrevious (context : Fields) : Prop :=
  context.get? "previous_task" = none ∨ context.get? "previous_task" = some .null

/-- No change to or from a value is seen on a path. -/
def Unchanged (task context : Fields) (path : String) (v : Value) : Prop :=
  ∀ op, op.isChange = true → outcome task context path (single op v) = .ok false

/-! ## Paths of the task -/

section Paths
variable {path : String} {rest : List Char}

theorem eq_of_task_prefix (h : "task.".toList <+: path.toList) :
    ∃ rest, path.toList = "task".toList ++ '.' :: rest := by
  obtain ⟨rest, hrest⟩ := h
  exact ⟨rest, hrest.symm⟩

theorem resolve_task (h : path.toList = "task".toList ++ '.' :: rest) (task context : Fields) :
    (Scope.build task context).resolve path.toList =
      (Value.obj task).walk (Path.segments rest) := by
  rw [h, Scope.build, Value.resolve_field _ (by decide), Scope.get?_task, Option.bind_some]

theorem previous?_task (h : path.toList = "task".toList ++ '.' :: rest) (task context : Fields) :
    previous? (some path) (some (Scope.build task context)) =
      (context.get? "previous_task").bind fun v => v.walk (Path.segments rest) := by
  have hmatch : previous? (some path) (some (Scope.build task context)) =
      (Scope.build task context).resolve ("previous_task".toList ++ '.' :: rest) := by
    unfold previous?
    simp only [Option.bind_eq_bind, Option.bind_some, h]
    rfl
  rw [hmatch, Scope.build, Value.resolve_field _ (by decide),
    Scope.get?_beside _ _ (by decide) (by decide)]

theorem previous?_elsewhere (h : ¬ "task.".toList <+: path.toList) (scope : Option Value) :
    previous? (some path) scope = none := by
  unfold previous?
  cases scope with
  | none => rfl
  | some s =>
    simp only [Option.bind_eq_bind, Option.bind_some]
    split
    · next rest hpath => exact absurd ⟨rest, hpath.symm⟩ h
    · rfl

theorem previous?_of_noPrevious {context : Fields} (h : NoPrevious context) (task : Fields) :
    previous? (some path) (some (Scope.build task context)) = none := by
  by_cases hpath : "task.".toList <+: path.toList
  · obtain ⟨rest, hrest⟩ := eq_of_task_prefix hpath
    rw [previous?_task hrest]
    rcases h with h | h
    · rw [h, Option.bind_none]
    · obtain ⟨seg, segs, hsegments⟩ := List.exists_cons_of_ne_nil (Path.segments_ne_nil rest)
      rw [h, hsegments]
      rfl
  · exact previous?_elsewhere hpath _

/-- What the value at a path was before is the value at the path for the task before. -/
theorem previous?_withPrevious (h : "task.".toList <+: path.toList) (task before context : Fields)
    (context' : Fields) :
    previous? (some path) (some (Scope.build task (withPrevious context before))) =
      (Scope.build before context').resolve path.toList := by
  obtain ⟨rest, hrest⟩ := eq_of_task_prefix h
  rw [previous?_task hrest, withPrevious, Fields.get?_put_self, Option.bind_some,
    resolve_task hrest]

end Paths

/-! ## What changed -/

section Changes
variable {op : Operator} {previous actual : Option Value} {v : Value}

theorem changed_mirror (previous actual : Option Value) (v : Value) :
    changed .changedTo previous actual v = changed .changedFrom actual previous v := by
  cases previous <;> cases actual <;> rfl

theorem changed_of_none (h : previous = none ∨ actual = none) :
    changed op previous actual v = false := by
  rcases h with rfl | rfl
  · rfl
  · cases previous <;> rfl

theorem changedTo_eq_true_iff : changed .changedTo previous actual v = true ↔
    ∃ p a, previous = some p ∧ actual = some a ∧ eqBool a v = true ∧ eqBool p v = false := by
  cases previous <;> cases actual <;> simp [changed]

theorem changedFrom_eq_true_iff : changed .changedFrom previous actual v = true ↔
    ∃ p a, previous = some p ∧ actual = some a ∧ eqBool p v = true ∧ eqBool a v = false := by
  cases previous <;> cases actual <;> simp [changed]

theorem outcome_change (h : op.isChange = true) (task context : Fields) (path : String) (v : Value) :
    outcome task context path (single op v) =
      .ok (changed op (previous? (some path) (some (Scope.build task context)))
        ((Scope.build task context).resolve path.toList) v) := by
  rw [outcome, holdsAll_single]
  cases op <;> first | rfl | cases h

theorem unchanged_of_none {task context : Fields} {path : String}
    (h : previous? (some path) (some (Scope.build task context)) = none ∨
      (Scope.build task context).resolve path.toList = none) : Unchanged task context path v :=
  fun op hop => by rw [outcome_change hop, changed_of_none h]

end Changes

section Equality
variable {u v w : Value} (hu : u.keyed = true) (hv : v.keyed = true) (hw : w.keyed = true)
include hu hv

theorem eqBool_comm : eqBool u v = eqBool v u := by
  rw [eqBool, eqBool, Bool.beq_comm, Value.same_comm hu hv]

include hw

theorem eqBool_trans (h : eqBool u v = true) (h' : eqBool v w = true) : eqBool u w = true := by
  obtain ⟨hbool, hsame⟩ := eqBool_iff.mp h
  obtain ⟨hbool', hsame'⟩ := eqBool_iff.mp h'
  exact eqBool_iff.mpr ⟨hbool.trans hbool', Value.same_trans hu hv hw hsame hsame'⟩

/-- Values of which one equals a third and the other does not are not equal. -/
theorem eqBool_eq_false_of_third (h : eqBool u w = true) (h' : eqBool v w = false) :
    eqBool u v = false := by
  rw [Bool.eq_false_iff]
  intro huv
  rw [eqBool_comm hu hv] at huv
  rw [eqBool_trans hv hu hw huv h] at h'
  cases h'

end Equality

/-- A change that is seen leads somewhere in the task and in what it was before, to different values. -/
theorem differs_of_changed {task before context : Fields} {path : String} {v : Value} {op : Operator}
    (htask : (Value.obj task).keyed = true) (hbefore : (Value.obj before).keyed = true)
    (hv : v.keyed = true) (h : changed op
      (previous? (some path) (some (Scope.build task (withPrevious context before))))
      ((Scope.build task (withPrevious context before)).resolve path.toList) v = true)
    (hop : op = .changedTo ∨ op = .changedFrom) :
    ∃ a b, (Scope.build task (withPrevious context before)).resolve path.toList = some a ∧
      (Scope.build before (withPrevious context task)).resolve path.toList = some b ∧
      strictEq (some a) b = false := by
  by_cases hpath : "task.".toList <+: path.toList
  · rw [previous?_withPrevious hpath task before context (withPrevious context task)] at h
    obtain ⟨rest, hrest⟩ := eq_of_task_prefix hpath
    rw [resolve_task hrest, resolve_task hrest] at h ⊢
    have hkeyed : ∀ {fields : Fields} {a : Value}, (Value.obj fields).keyed = true →
        (Value.obj fields).walk (Path.segments rest) = some a → a.keyed = true :=
      fun hfields hwalk => Value.keyed_inherited.walk hfields hwalk
    rcases hop with rfl | rfl
    · obtain ⟨p, a, hp, ha, heq, hne⟩ := changedTo_eq_true_iff.mp h
      exact ⟨a, p, ha, hp, eqBool_eq_false_of_third (hkeyed htask ha) (hkeyed hbefore hp) hv heq hne⟩
    · obtain ⟨p, a, hp, ha, heq, hne⟩ := changedFrom_eq_true_iff.mp h
      refine ⟨a, p, ha, hp, ?_⟩
      rw [strictEq, eqBool_comm (hkeyed htask ha) (hkeyed hbefore hp)]
      exact eqBool_eq_false_of_third (hkeyed hbefore hp) (hkeyed htask ha) hv heq hne
  · rw [previous?_elsewhere hpath, changed_of_none (.inl rfl)] at h
    cases h

/-- That a value at a path has changed to another is, with the task and what it was before exchanged, that
it has changed from it. Neither is so on a path that does not lead into the task, or without a task
before, or where the path leads nowhere in one of the two; never are both so, and where one is so the
values at the path differ. -/
theorem changes_mirror (task before context : Fields) (path : String) (v : Value) :
    outcome task (withPrevious context before) path (single .changedTo v) =
      outcome before (withPrevious context task) path (single .changedFrom v) ∧
    (¬ "task.".toList <+: path.toList → Unchanged task (withPrevious context before) path v) ∧
    (NoPrevious context → Unchanged task context path v) ∧
    ((Scope.build task (withPrevious context before)).resolve path.toList = none ∨
        (Scope.build before (withPrevious context task)).resolve path.toList = none →
      Unchanged task (withPrevious context before) path v) ∧
    ∃ changedTo changedFrom,
      outcome task (withPrevious context before) path (single .changedTo v) = .ok changedTo ∧
      outcome task (withPrevious context before) path (single .changedFrom v) = .ok changedFrom ∧
      ¬ (changedTo = true ∧ changedFrom = true) ∧
      ((Value.obj task).keyed = true → (Value.obj before).keyed = true → v.keyed = true →
        changedTo = true ∨ changedFrom = true →
        ∃ a b, (Scope.build task (withPrevious context before)).resolve path.toList = some a ∧
          (Scope.build before (withPrevious context task)).resolve path.toList = some b ∧
          strictEq (some a) b = false) := by
  refine ⟨?_, fun hpath => ?_, fun hnone => ?_, fun hnone => ?_, ?_⟩
  · rw [outcome_change rfl, outcome_change rfl, changed_mirror]
    by_cases hpath : "task.".toList <+: path.toList
    · rw [previous?_withPrevious hpath task before context (withPrevious context task),
        previous?_withPrevious hpath before task context (withPrevious context before)]
    · rw [previous?_elsewhere hpath, previous?_elsewhere hpath, changed_of_none (.inr rfl),
        changed_of_none (.inl rfl)]
  · exact unchanged_of_none (.inl (previous?_elsewhere hpath _))
  · exact unchanged_of_none (.inl (previous?_of_noPrevious hnone task))
  · rcases hnone with htask | hbefore
    · exact unchanged_of_none (.inr htask)
    · by_cases hpath : "task.".toList <+: path.toList
      · exact unchanged_of_none (.inl ((previous?_withPrevious hpath task before context _).trans hbefore))
      · exact unchanged_of_none (.inl (previous?_elsewhere hpath _))
  · refine ⟨_, _, outcome_change rfl _ _ _ _, outcome_change rfl _ _ _ _, fun hboth => ?_,
      fun htask hbefore hv hsome => ?_⟩
    · obtain ⟨p, a, hp, ha, heq, -⟩ := changedTo_eq_true_iff.mp hboth.1
      obtain ⟨p', a', hp', ha', -, hne⟩ := changedFrom_eq_true_iff.mp hboth.2
      cases ha.symm.trans ha'
      rw [heq] at hne
      cases hne
    · rcases hsome with hto | hfrom
      · exact differs_of_changed htask hbefore hv hto (.inl rfl)
      · exact differs_of_changed htask hbefore hv hfrom (.inr rfl)

/-- A task that was completed, with a list of what is left to do. -/
def completedTask : Fields := [("status", .str "completed"), ("left", .list [])]

/-- The task before. -/
def taskInProgress : Fields := [("status", .str "in_progress"), ("left", .list [.str "call"])]

theorem changes_mirror_of_status :
    outcome taskInProgress (withPrevious [] completedTask) "task.status"
        (single .changedFrom (.str "completed")) = .ok true ∧
      (∃ a b, (Scope.build completedTask (withPrevious [] taskInProgress)).resolve
          "task.status".toList = some a ∧
        (Scope.build taskInProgress (withPrevious [] completedTask)).resolve
          "task.status".toList = some b ∧ strictEq (some a) b = false) ∧
      Unchanged completedTask (withPrevious [] taskInProgress) "task.left.0" (.str "call") ∧
      Unchanged completedTask (withPrevious [] taskInProgress) "status" (.str "completed") ∧
      Unchanged completedTask [] "task.status" (.str "completed") := by
  obtain ⟨hmirror, -, hnone, -, seen, _, hseen, -, -, hdiffer⟩ :=
    changes_mirror completedTask taskInProgress [] "task.status" (.str "completed")
  have htrue : outcome completedTask (withPrevious [] taskInProgress) "task.status"
      (single .changedTo (.str "completed")) = .ok true := rfl
  obtain rfl : seen = true := Except.ok.inj (hseen.symm.trans htrue)
  obtain ⟨-, -, -, hmissing, -⟩ :=
    changes_mirror completedTask taskInProgress [] "task.left.0" (.str "call")
  obtain ⟨-, helsewhere, -⟩ := changes_mirror completedTask taskInProgress [] "status" (.str "completed")
  exact ⟨hmirror.symm.trans htrue, hdiffer rfl rfl rfl (.inl rfl), hmissing (.inl rfl),
    helsewhere (by decide), hnone (.inl rfl)⟩

end TaskAutomation.Condition
