import TaskAutomation.Engine.Delivery
import TaskAutomation.Proofs.Engine.Accounting

/-!
# Two ways to tell of a changed status

A status that changed is told to the scanner directly, or by an event that is delivered.

* `Program.Comes p w q w'` : a run of `p` in `w` comes to the rest `q` of it in `w'`, call by call; it ends
  as that rest does (`Comes.run_eq`);
* `Engine.Hands e p w x` : a run of `p` in `w` comes to the processing of the trigger `x`;
  `Hands.not_of_within` : not so a program that never enters the processing of triggers;
* `Delivery.changeFrom`, `Delivery.changeEvent` : the trigger of a status that changed, and the event that
  tells of it;
* `Scan.hands_statusChanged`, `Scan.not_hands_statusChanged` : the scanner compares the two statuses
  before it hands on a trigger; `Delivery.hands_handle` : the handler of events hands on what it gets;
* `Delivery.alike_iff_changed` : so both hand on the same trigger where the status changed, and the
  handler alone does where it did not.
-/

namespace TaskAutomation

namespace Program

variable {α β : Type}

/-- A run comes from a program in a world to the rest of it in another world, call by call. -/
inductive Comes : Program α → World → Program α → World → Prop where
  | here (p : Program α) (w : World) : Comes p w p w
  | ask {c : Call} {next : c.Reply → Program α} {w w' : World} {q : Program α}
    (h : Comes (next (w.answer c).1) (w.answer c).2 q w') : Comes (.ask c next) w q w'

namespace Comes

variable {p q r : Program α} {w w' w'' : World}

theorem trans (h : p.Comes w q w') (h' : q.Comes w' r w'') : p.Comes w r w'' := by
  induction h with
  | here p w => exact h'
  | ask _ ih => exact .ask (ih h')

/-- The run ends as the rest of it does. -/
theorem run_eq (h : p.Comes w q w') : p.run w = q.run w' := by
  induction h with
  | here p w => rfl
  | ask _ ih => exact ih

/-- The log of the run ends with that of the rest. -/
theorem trace_suffix (h : p.Comes w q w') : q.trace w' <:+ p.trace w := by
  induction h with
  | here => exact List.suffix_refl _
  | ask _ ih => exact ih.trans (List.suffix_cons _ _)

theorem bind {g : α → Program β} (h : p.Comes w q w') : (p >>= g).Comes w (q >>= g) w' := by
  induction h with
  | here p w => exact .here _ w
  | ask _ ih => exact .ask ih

/-- After a part that ends in a result comes what follows it. -/
theorem of_run {a : α} {g : α → Program β} (h : p.run w = (.ok a, w')) :
    (p >>= g).Comes w (g a) w' := by
  induction p generalizing w with
  | done b =>
    cases h
    exact .here _ _
  | fail f => cases h
  | ask c next ih => exact .ask (ih _ h)

theorem guard {o : Operation} {argument : Option Value} {body : Program α} (ho : w.outages = []) :
    (o.guard argument body).Comes w body w := by
  have hcall := run_call (.enter o argument .nothing) w
  rw [World.answer_enter ho] at hcall
  exact of_run hcall

end Comes

end Program

open Program

namespace Engine

variable {α β : Type} {e : Engine} {p : Program α} {w w' : World} {x : Occurrence}

/-- A run of the program in the world hands a trigger to the engine. -/
def Hands (e : Engine) (p : Program α) (w : World) (x : Occurrence) : Prop :=
  ∃ (rest : TriggerOutcome → Program α) (w' : World), p.Comes w (e.process x false >>= rest) w'

namespace Hands

theorem process : e.Hands (e.process x false) w x :=
  ⟨pure, w, (bind_pure (e.process x false)).symm ▸ .here _ w⟩

theorem of_comes {q : Program α} (h : p.Comes w q w') (hq : e.Hands q w' x) : e.Hands p w x := by
  obtain ⟨rest, w'', hcomes⟩ := hq
  exact ⟨rest, w'', h.trans hcomes⟩

theorem bind {g : α → Program β} (h : e.Hands p w x) : e.Hands (p >>= g) w x := by
  obtain ⟨rest, w', hcomes⟩ := h
  refine ⟨fun o => rest o >>= g, w', ?_⟩
  rw [← bind_assoc]
  exact hcomes.bind

/-- A program that never enters the processing of triggers hands none to the engine. -/
theorem not_of_within
    (hp : p.Within fun c => c ≠ .enter (Engine.operation "process") none .nothing) :
    ¬ e.Hands p w x := by
  rintro ⟨rest, w', hcomes⟩
  -- the processing begins with the entry, and its log is the last part of the log of the run
  have hmem : ⟨.enter (Engine.operation "process") none .nothing,
      (w'.answer (.enter (Engine.operation "process") none .nothing)).1⟩ ∈ p.trace w :=
    hcomes.trace_suffix.subset List.mem_cons_self
  exact Ends.within hp (p.ends_trace w) _ hmem rfl

end Hands

end Engine

namespace Scan

variable {e : Engine} {w : World} {task : Task} {old : TaskStatus} {previous metadata : Fields}

theorem statusOf_name (s : TaskStatus) : statusOf (.str s.name) = .ok s := by
  cases s <;> rfl

/-- A status that is the old one ends the call. -/
theorem statusChanged_of_eq (h : old = task.status) :
    statusChanged e task (.str old.name) previous metadata
      = (operation "status_changed").guard none
        (pure { trigger := .statusChanged, taskId := task.id }) := by
  unfold statusChanged
  rw [statusOf_name]
  exact congrArg _ (if_pos h)

/-- A status that differs from the old one is handled with it. -/
theorem statusChanged_of_ne (h : old ≠ task.status) :
    statusChanged e task (.str old.name) previous metadata
      = (operation "status_changed").guard none (occurrence .statusChanged task
          (some (Fields.put previous "status" (.str old.name))) none metadata >>= handle e) := by
  unfold statusChanged
  rw [statusOf_name]
  exact congrArg _ (if_neg h)

theorem hands_handle (ho : w.outages = []) (x : Occurrence) : e.Hands (handle e x) w x :=
  .of_comes (.guard ho) .process

/-- The scanner hands on nothing where the status is the old one. -/
theorem not_hands_statusChanged (h : old = task.status) (x : Occurrence) :
    ¬ e.Hands (statusChanged e task (.str old.name) previous metadata) w x := by
  rw [statusChanged_of_eq h]
  exact Engine.Hands.not_of_within (.guard (by simp [operation, Engine.operation]) (.pure _))

/-- The scanner hands on the trigger of a status that differs from the old one. -/
theorem hands_statusChanged (ho : w.outages = []) (h : old ≠ task.status) :
    e.Hands (statusChanged e task (.str old.name) previous metadata) w
      ⟨.statusChanged, task, some (Fields.put previous "status" (.str old.name)), none, metadata,
        w.clock⟩ := by
  rw [statusChanged_of_ne h]
  refine .of_comes (.guard ho) (.of_comes (.of_run ?_) (hands_handle ho _))
  rfl

end Scan

namespace Delivery

/-- The trigger of a status that changed from an old one, with what else is known of the task before. -/
def changeFrom (old : TaskStatus) (snapshot : Option Fields) (task : Task) (metadata : Fields)
    (moment : Moment) : Occurrence where
  event := .statusChanged
  task := task
  previousTask := some (Fields.put (snapshot.getD []) "status" (.str old.name))
  timeEntry := none
  metadata := metadata
  occurredAt := moment

/-- The event of a status that changed from an old one. -/
def changeEvent (id : String) (old : TaskStatus) (snapshot : Option Fields) (task : Task)
    (metadata : Fields) (timestamp : Moment) : Event where
  id := id
  type := .statusChanged
  task := task
  oldStatus := some old
  previousTask := snapshot
  timeEntry := none
  metadata := metadata
  timestamp := timestamp

variable {e : Engine} {w : World} {event : Event}

/-- What is not marked is marked as new. -/
theorem run_mark (hnew : (Claims.isMarked event.id).run w = (.ok false, w)) (ho : w.outages = []) :
    ∃ w', (Claims.mark e.settings event.id).run w = (.ok true, w') := by
  have hfree : (w.store.find? w.clock.instant (.processed event.id)).isSome = false := by
    unfold Claims.isMarked at hnew
    rw [Operation.run_guard ho, run_store] at hnew
    exact Except.ok.inj (congrArg Prod.fst hnew)
  have hset : (store (.setIfFree (.processed event.id) (.text "1"))).run w
      = (.ok true, w.after (.setIfFree (.processed event.id) (.text "1"))) := by
    rw [run_store]
    simp only [Command.run, hfree, Bool.false_eq_true, if_false]
  refine ⟨(w.after (.setIfFree (.processed event.id) (.text "1"))).after
    (.expire (.processed event.id) e.settings.eventTtl), ?_⟩
  unfold Claims.mark
  rw [Operation.run_guard ho, run_bind_ok hset]
  rfl

/-- The handler hands on the trigger of every event that it has not seen before. -/
theorem hands_handle (ho : w.outages = [])
    (hnew : (Claims.isMarked event.id).run w = (.ok false, w)) :
    e.Hands (handle e event) w event.occurrence := by
  obtain ⟨w', hmark⟩ := run_mark hnew ho
  have ho' : w'.outages = [] := (outages_of_run hmark).trans ho
  exact .of_comes (.of_run hmark) (.bind (Scan.hands_handle ho' _))

/-- Where the status changed, the scanner and the handler of an event that is new hand on the same trigger,
but for the id of the event in its metadata and the moment, which is the event's own. Where it did not, the
scanner ends at once, and the handler hands on the trigger all the same. -/
theorem alike_iff_changed (ho : w.outages = []) {id : String}
    (hnew : (Claims.isMarked id).run w = (.ok false, w)) (e : Engine) (task : Task) (old : TaskStatus)
    (snapshot : Option Fields) (metadata : Fields) (timestamp : Moment) :
    let direct := Scan.statusChanged e task (.str old.name) (snapshot.getD []) metadata
    let delivered := handle e (changeEvent id old snapshot task metadata timestamp)
    let x := changeFrom old snapshot task metadata w.clock
    let y := { x with
      metadata := Fields.put metadata "event_id" (.str id)
      occurredAt := timestamp.inUtc }
    (((∃ z, e.Hands direct w z) ↔ ∃ z, e.Hands delivered w z) ↔ old ≠ task.status)
      ∧ (old ≠ task.status → e.Hands direct w x ∧ e.Hands delivered w y)
      ∧ (old = task.status → e.Hands delivered w y
        ∧ direct.run w = (.ok { trigger := .statusChanged, taskId := task.id }, w)) := by
  intro direct delivered x y
  have hdelivered : e.Hands delivered w y := hands_handle ho hnew
  have hdirect : old ≠ task.status → e.Hands direct w x := Scan.hands_statusChanged ho
  refine ⟨⟨fun halike hsame => ?_, fun h => ?_⟩, fun h => ⟨hdirect h, hdelivered⟩,
    fun h => ⟨hdelivered, ?_⟩⟩
  · obtain ⟨z, hz⟩ := halike.mpr ⟨y, hdelivered⟩
    exact Scan.not_hands_statusChanged hsame z hz
  · exact ⟨fun _ => ⟨y, hdelivered⟩, fun _ => ⟨x, hdirect h⟩⟩
  · show (Scan.statusChanged e task _ _ _).run w = _
    rw [Scan.statusChanged_of_eq h, Operation.run_guard ho, run_pure]

section Sample

/-- A rule on changed statuses that logs an activity. -/
def changeRule : Rule :=
  { Engine.overdueRule with
    trigger := .statusChanged
    actions := [⟨"log_activity", [("activity_type", .str "note")]⟩] }

/-- A store with the rule. -/
def changeWorld : World := ((Rules.create changeRule).run { clock := Moment.ofInstant 0 }).2

/-- A task that is pending, and was in progress or pending before. -/
def changed (old : TaskStatus) : Event :=
  changeEvent "e-1" old none Engine.overdueTask.task [] (Moment.ofInstant 0)

/-- Both hand on the trigger of a task that was in progress and is pending. -/
theorem alike_of_inProgress :
    let x := changeFrom .inProgress none Engine.overdueTask.task [] (Moment.ofInstant 0)
    Engine.Hands {} (Scan.statusChanged {} Engine.overdueTask.task (.str "in_progress") [] [])
        changeWorld x
      ∧ Engine.Hands {} (handle {} (changed .inProgress)) changeWorld
        { x with metadata := [("event_id", .str "e-1")] } :=
  (alike_iff_changed (w := changeWorld) rfl rfl {} Engine.overdueTask.task .inProgress none []
    (Moment.ofInstant 0)).2.1 (by decide)

/-- A task that was pending and is pending: the scanner hands on nothing, and the handler of an event that
is new runs a rule. -/
theorem ran_of_unchanged :
    (Claims.isMarked "e-1").run changeWorld = (.ok false, changeWorld)
      ∧ (changed .pending).task.status = .pending
      ∧ (∀ x, ¬ Engine.Hands {} (Scan.statusChanged {} (changed .pending).task (.str "pending") [] [])
        changeWorld x)
      ∧ (((handle {} (changed .pending)).run changeWorld).1.toOption.join.map
        TriggerOutcome.executedCount) = some 1 := by
  have hsame : TaskStatus.pending = (changed .pending).task.status := rfl
  exact ⟨rfl, hsame.symm, Scan.not_hands_statusChanged hsame, by decide +kernel⟩

end Sample

end Delivery

end TaskAutomation
