import TaskAutomation.Proofs.Action.Parameters
import TaskAutomation.Proofs.DueDate.Absolute
import TaskAutomation.Proofs.Engine.Rejection
import TaskAutomation.Proofs.Tasks.Edits
import TaskAutomation.Proofs.Tasks.RoundTrip
import TaskAutomation.Proofs.Template

/-!
# Due dates that actions set

An action tells the due date that it sets as a text. The task keeps the moment that this text stands for,
to the microsecond, and so does what is read of it later.

* `Tasks.IsDue w id m` : whatever the time, a task is read under the id, and it is due at the moment;
* `Tasks.isDue_of_create`, `Tasks.isDue_of_update` : so it is with a task that was created with the text of
  a moment in UTC, or that got this as its due date;
* `Engine.resolved_dates_last` : what becomes of a due date that a specification stands for.
-/

namespace TaskAutomation

open Check Program

/-! ## Tasks that are due -/

namespace Task

variable {s : Setting} {f : Fields} {t : Task} {m : Moment}

theorem dueDate_of_check (h : Task.check s (.obj f) = .ok t) (hm : m.InUtc)
    (hdue : f.get? "due_date" = some (.str m.iso)) : t.dueDate = some m := by
  obtain ⟨f', hf, -, hread, -⟩ := parts_of_check h
  cases hf
  have hmoment : optional? s f "due_date" momentInUtc = .ok (some m) := by
    refine optional_of_get? hdue ?_
    show (momentInUtc s (.str m.iso)).map some = _
    rw [momentInUtc_iso hm.shown hm.utc]
    rfl
  exact Checked.ok.inj (hread.symm.trans hmoment)

theorem actualHours_of_check (h : Task.check s (.obj f) = .ok t) {x : Float}
    (hx : f.get? "actual_hours" = some (.float x)) : t.actualHours = x := by
  obtain ⟨f', hf, -, -, -, hread, -⟩ := parts_of_check h
  cases hf
  rcases get?_of_optional hread with ⟨v, hv, hbounded⟩ | ⟨hnone, -⟩
  · cases hx.symm.trans hv
    obtain ⟨y, hnumber, hbounded⟩ := Checked.andThen_eq_ok.mp hbounded
    cases hnumber
    split at hbounded
    · cases hbounded
    · cases hbounded
      rfl
  · cases hx.symm.trans hnone

/-- What is read of the document of a task has the id of the task, and finite hours. -/
theorem kept_of_check {stored : Task}
    (h : Task.check s (.obj (Value.storableFields stored.fields)) = .ok t) :
    t.id = stored.id ∧ Decimal.isFinite t.actualHours = true := by
  have hid : t.id = stored.id := by
    obtain ⟨f, hf, hread, -⟩ := parts_of_check h
    cases hf
    have hid : Fields.get? (Value.storableFields stored.fields) "id" = some (.str stored.id) := by
      rw [Value.get?_storableFields]
      rfl
    exact Checked.ok.inj (hread.symm.trans (required_of_get? hid rfl))
  have hfinite : Decimal.isFinite stored.actualHours = true := by
    by_contra hinfinite
    obtain ⟨found, hissues⟩ := check_storableFields_issues (Bool.not_eq_true _ ▸ hinfinite) s
    rw [h] at hissues
    cases hissues
  have hhours : Fields.get? (Value.storableFields stored.fields) "actual_hours" =
      some (.float stored.actualHours) := by
    rw [Value.get?_storableFields]
    show some (Value.float stored.actualHours).storable = _
    rw [Value.storable, if_pos hfinite]
  exact ⟨hid, actualHours_of_check h hhours ▸ hfinite⟩

end Task

namespace Tasks

variable {w w' : World} {s : Setting} {v : Value} {t : Task} {m : Moment}

/-- Whatever the time, a task is read under the id, and it is due at the moment. -/
def IsDue (w : World) (id : String) (m : Moment) : Prop :=
  ∀ later : World, later.store = w.store → later.outages = [] →
    ∃ t, (get id).run later = (.ok (some t), later) ∧ t.id = id ∧ t.dueDate = some m

/-- A task that was checked in UTC and written is read as it is due. -/
theorem isDue_of_keeps (hclock : s.now.InUtc) (h : Task.check s v = .ok t)
    (hhours : Decimal.isFinite t.actualHours = true) (hdue : t.dueDate = some m)
    (hkeeps : w.store.Keeps (.taskDetail t.id) (.cell (.ofDocument t.fields))) : IsDue w t.id m := by
  intro later hstore ho
  have hread := run_get_of_keeps ho (hstore ▸ hkeeps)
  rw [Task.check_storableFields hclock.stamped h hhours] at hread
  exact ⟨t.written, hread, rfl, hdue⟩

/-- A task that is created with the text of a moment as its due date, and no hours, is due at the moment. -/
theorem isDue_of_create {fields : Fields} (hclock : w.clock.InUtc) (hm : m.InUtc)
    (hid : fields.get? "id" = none) (hhours : fields.get? "actual_hours" = none)
    (hdue : fields.get? "due_date" = some (.str m.iso)) (h : (create fields).run w = (.ok t, w')) :
    IsDue w' t.id m := by
  have hbody := Operation.run_of_guard_ok h
  rw [hid] at hbody
  obtain ⟨idValue, w₁, hnew, hbody⟩ := parts_of_bind hbody
  obtain ⟨setting, w₂, hsetting, hbody⟩ := parts_of_bind hbody
  cases hsetting
  obtain ⟨task, w₃, hchecked, hsave⟩ := parts_of_bind hbody
  obtain ⟨hcheck, rfl⟩ := ok_of_ofChecked hchecked
  obtain ⟨rfl, hsaved⟩ := saved_of_save hsave
  rw [← clock_of_run hnew] at hclock
  have hget : ∀ {name}, name ≠ "id" → Fields.get? (fields.put "id" idValue) name = fields.get? name :=
    fun hne => Fields.get?_put_ne _ _ hne
  have hactual : Decimal.isFinite t.actualHours = true := by
    obtain ⟨f, hf, -, -, -, hread, -⟩ := Task.parts_of_check hcheck
    cases hf
    rcases get?_of_optional hread with ⟨v, hv, -⟩ | ⟨-, hzero⟩
    · rw [hget (by decide), hhours] at hv
      cases hv
    · rw [hzero]
      decide +kernel
  refine isDue_of_keeps hclock hcheck hactual (Task.dueDate_of_check hcheck hm ?_) hsaved.document
  rw [hget (by decide), hdue]

/-- A task that gets the text of a moment as its due date is due at the moment. -/
theorem isDue_of_update {id : String} {stored : Task} (hclock : w.clock.InUtc) (hm : m.InUtc)
    (hid : stored.id = id) (hkeeps : w.store.Keeps (.taskDetail id) (.cell (.ofDocument stored.fields)))
    (h : (update id [("due_date", .str m.iso)]).run w = (.ok t, w')) : IsDue w' id m := by
  have hbody := Operation.run_of_guard_ok h
  obtain ⟨existing?, w₁, hget, hbody⟩ := parts_of_bind hbody
  obtain ⟨rfl, existing, rfl, hexisting⟩ := check_of_get hkeeps hget
  obtain ⟨setting, w₂, hsetting, hbody⟩ := parts_of_bind hbody
  cases hsetting
  obtain ⟨task, w₃, hchecked, hsave⟩ := parts_of_bind hbody
  obtain ⟨hrevise, rfl⟩ := ok_of_ofChecked hchecked
  obtain ⟨rfl, hsaved⟩ := saved_of_save hsave
  obtain ⟨hown, hfinite⟩ := Task.kept_of_check hexisting
  have hsame : t.id = id := (id_of_revise hrevise).trans (hown.trans hid)
  have hactual : t.actualHours = existing.actualHours := Task.actualHours_of_check hrevise rfl
  rw [← hsame]
  exact isDue_of_keeps hclock hrevise (hactual ▸ hfinite) (Task.dueDate_of_check hrevise hm rfl)
    hsaved.document

end Tasks

/-! ## Actions that set due dates -/

theorem Parameters.run_of_need {α : Type} {p : Parameters} {name : String} {g : Value → Program α}
    {w w' : World} {a : α} (h : ((do g (← p.need name)) : Program α).run w = (.ok a, w')) :
    ∃ v, p.get? name = some v ∧ (g v).run w = (.ok a, w') := by
  rcases hneed : p.get? name with _ | v
  · rw [Parameters.need, hneed] at h
    cases h
  · rw [Parameters.need, hneed] at h
    exact ⟨v, rfl, h⟩

theorem Parameters.run_of_word {α : Type} {p : Parameters} {name : String} {g : Value → Program α}
    {w w' : World} {a : α} (h : ((do g (← p.word name)) : Program α).run w = (.ok a, w')) :
    ∃ v, (g v).run w = (.ok a, w') := by
  obtain ⟨v, w₁, hword, h⟩ := parts_of_bind h
  obtain ⟨v', -, hword⟩ := run_of_need hword
  split at hword
  · cases hword
    exact ⟨v, h⟩
  · cases hword

theorem Occasion.run_of_dueDate {o : Occasion} {spec : String} {m : Moment}
    (hm : DueDate.resolve o.now (.str spec) = some m) (w : World) :
    (o.dueDate (.str spec)).run w = (.ok (.str m.iso), w) := by
  unfold dueDate
  dsimp only
  rw [hm]
  rfl

variable {p : Parameters} {t : Task} {o : Occasion} {spec : String} {m : Moment} {w w' : World}
  {result : Fields}

/-- The task that is made has the due date that is told. -/
theorem Creation.isDue_task (hclock : w.clock.InUtc) (hspec : p.get? "due_date" = some (.str spec))
    (hm : DueDate.resolve o.now (.str spec) = some m) (h : (task p t o).run w = (.ok result, w')) :
    result.get? "due_date" = some (.str m.iso)
      ∧ ∃ id, result.get? "created_task_id" = some (.str id) ∧ Tasks.IsDue w' id m := by
  obtain ⟨given, hgiven, h⟩ := Parameters.run_of_need h
  cases hspec.symm.trans hgiven
  rw [run_bind_ok (Occasion.run_of_dueDate hm w)] at h
  obtain ⟨title, -, h⟩ := Parameters.run_of_need h
  obtain ⟨description, -, h⟩ := Parameters.run_of_need h
  obtain ⟨client, -, h⟩ := Parameters.run_of_need h
  obtain ⟨priority, h⟩ := Parameters.run_of_word h
  obtain ⟨status, h⟩ := Parameters.run_of_word h
  obtain ⟨tag, -, h⟩ := Parameters.run_of_need h
  obtain ⟨hours, -, h⟩ := Parameters.run_of_need h
  obtain ⟨parent, -, h⟩ := Parameters.run_of_need h
  obtain ⟨created, w₁, hcreate, h⟩ := parts_of_bind h
  cases h
  exact ⟨rfl, created.id, rfl,
    Tasks.isDue_of_create hclock (DueDate.inUtc_of_resolve hm) rfl rfl rfl hcreate⟩

/-- The task at hand gets the due date that is told. -/
theorem Change.isDue_reschedule {stored : Task} (hclock : w.clock.InUtc) (hid : stored.id = t.id)
    (hkeeps : w.store.Keeps (.taskDetail t.id) (.cell (.ofDocument stored.fields)))
    (hspec : p.get? "due_date" = some (.str spec)) (hm : DueDate.resolve o.now (.str spec) = some m)
    (h : (reschedule p t o).run w = (.ok result, w')) :
    result.get? "new_due_date" = some (.str m.iso) ∧ Tasks.IsDue w' t.id m := by
  obtain ⟨given, hgiven, h⟩ := Parameters.run_of_need h
  cases hspec.symm.trans hgiven
  rw [run_bind_ok (Occasion.run_of_dueDate hm w)] at h
  obtain ⟨changed, w₁, hupdate, h⟩ := parts_of_bind h
  cases h
  exact ⟨rfl, Tasks.isDue_of_update hclock (DueDate.inUtc_of_resolve hm) hid hkeeps hupdate⟩

/-! ## Parameters -/

/-- A due date without placeholders is given to its action as it is. -/
theorem Action.get?_filled {a : Action} (hspec : a.parameters.get? "due_date" = some (.str spec))
    (hplain : Template.hasPlaceholder spec = false) (context : Fields) :
    (a.filled t context).get? "due_date" = some (.str spec) := by
  rw [filled, Template.get?_interpolateFields, hspec, Option.map_some,
    Template.interpolate_of_not_hasPlaceholder _ hplain]

/-- A declared parameter is what its declaration reads it as. -/
theorem Parameters.get?_of_readFor {type : ActionType} {s : Setting} {f : Fields}
    (h : readFor type s f = .ok p) (declared : Parameter) (hmem : declared ∈ type.parameters) :
    ∃ v, p.get? declared.name = some v ∧ declared.read s f = .ok v := by
  obtain ⟨fields, hall, hp⟩ := Checked.andThen_eq_ok.mp h
  split at hp
  · cases hp
  · cases hp
    exact Parameter.get?_of_readAll hall type.nodup_parameters hmem

theorem Parameters.dueDate_of_createTask {s : Setting} {f : Fields}
    (h : readFor .createTask s f = .ok p) (hspec : f.get? "due_date" = some (.str spec)) :
    p.get? "due_date" = some (.str spec) := by
  obtain ⟨v, hv, hread⟩ :=
    get?_of_readFor h (Parameter.textOrNull "due_date") (by simp [ActionType.parameters])
  cases hread.symm.trans (optional_of_get? hspec rfl)
  exact hv

theorem Parameters.dueDate_of_reschedule {s : Setting} {f : Fields}
    (h : readFor .reschedule s f = .ok p) (hspec : f.get? "due_date" = some (.str spec)) :
    p.get? "due_date" = some (.str spec) := by
  obtain ⟨v, hv, hread⟩ := get?_of_readFor h (Parameter.requiredText "due_date") List.mem_cons_self
  cases hspec.symm.trans (Parameter.read_requiredText hread)
  exact hv

namespace Engine

variable {e : Engine} {a : Action} {context : Fields} {rule : Option Rule} {moment : Option Moment}
  {type : ActionType}

/-- What a dispatch answers is what its executor answers, with the parameters that were read. -/
theorem executor_of_dispatch (htype : e.registry.lookup a.type = some type)
    (h : (e.dispatch a t context rule moment).run w = (.ok result, w')) :
    ∃ p, Parameters.read a.type { now := w.clock } (a.filled t context) = .ok p
      ∧ (type.run p t ⟨e.settings, moment.getD w.clock, rule, context⟩).run w = (.ok result, w') := by
  rcases run_dispatch_cases e a t context rule moment w with
    ⟨f, hfail⟩ | ⟨type', p, ⟨ended, w₁⟩, htype', hread, hended, hdispatch⟩
  · rw [h] at hfail
    cases hfail
  · cases htype.symm.trans htype'
    rw [h] at hdispatch
    cases ended with
    | error f => cases hdispatch
    | ok found =>
      cases hdispatch
      exact ⟨p, hread, hended⟩

/-- The text that a due date is told as stands for the moment that the due date was given as, with any
reference. If it was given to an action as a text without placeholders, then the task that the action makes
or puts off is due at this moment, whenever it is read, and the action tells just this text. -/
theorem resolved_dates_last :
    (∀ (given : DueDate.Spec) (reference m : Moment), (∀ d, given = .date d → d.isValid = true) →
      given.resolve reference = .ok (some m) →
        ∀ r, (DueDate.Spec.value (.str m.iso)).resolve r = .ok (some m))
    ∧ ∀ (e : Engine) (a : Action) (t : Task) (context : Fields) (rule : Option Rule)
        (moment : Option Moment) (w w' : World) (result : Fields) (spec : String) (m : Moment),
      w.clock.InUtc → a.parameters.get? "due_date" = some (.str spec) →
      Template.hasPlaceholder spec = false →
      DueDate.resolve (moment.getD w.clock) (.str spec) = some m →
      (e.dispatch a t context rule moment).run w = (.ok result, w') →
      (a.type = ActionType.createTask.name → e.registry.lookup a.type = some .createTask →
        result.get? "due_date" = some (.str m.iso)
          ∧ ∃ id, result.get? "created_task_id" = some (.str id) ∧ Tasks.IsDue w' id m)
      ∧ (a.type = ActionType.reschedule.name → e.registry.lookup a.type = some .reschedule →
        (∃ stored : Task, stored.id = t.id
          ∧ w.store.Keeps (.taskDetail t.id) (.cell (.ofDocument stored.fields))) →
        result.get? "new_due_date" = some (.str m.iso) ∧ Tasks.IsDue w' t.id m) := by
  refine ⟨fun given reference m hdate hm r => ?_,
    fun e a t context rule moment w w' result spec m hclock hspec hplain hm hrun => ?_⟩
  · exact congrArg Except.ok (DueDate.resolve_iso (DueDate.inUtc_of_spec hdate hm) r)
  have hfilled := Action.get?_filled (t := t) hspec hplain context
  refine ⟨fun hname htype => ?_, fun hname htype hstored => ?_⟩
  · obtain ⟨p, hread, hexecutor⟩ := executor_of_dispatch htype hrun
    rw [hname] at hread
    exact Creation.isDue_task hclock (Parameters.dueDate_of_createTask hread hfilled) hm hexecutor
  · obtain ⟨p, hread, hexecutor⟩ := executor_of_dispatch htype hrun
    rw [hname] at hread
    obtain ⟨stored, hid, hkeeps⟩ := hstored
    exact Change.isDue_reschedule hclock hid hkeeps (Parameters.dueDate_of_reschedule hread hfilled) hm
      hexecutor

/-- A date and time early in the calendar, to the microsecond, on a clock ahead of UTC. -/
def earlyText : String := "0042-03-01T00:00:00.000001+05:30"

def earlyMoment : Moment := .ofDate ⟨42, 2, 28⟩ 66600000001 (some 0)

def earlyTask : Action where
  type := "create_task"
  parameters := [("title", .str "Call \x7btask.title\x7d"), ("due_date", .str earlyText)]

def bringForward : Action where
  type := "reschedule"
  parameters := [("due_date", .str earlyText)]

/-- The world with the planned task in its store. -/
def plannedWorld : World := ((Tasks.save Tasks.plannedTask none).run Tasks.emptyWorld).2

/-- A task is made, and the planned task is brought forward: both are due at the moment. -/
theorem resolved_dates_last_of_early :
    (∀ r, (DueDate.Spec.value (.str earlyMoment.iso)).resolve r = .ok (some earlyMoment))
    ∧ (∃ result w' id,
      (dispatch {} earlyTask overdueTask.task [] none none).run blankWorld = (.ok result, w')
        ∧ result.get? "due_date" = some (.str "0042-02-28T18:30:00.000001+00:00")
        ∧ result.get? "created_task_id" = some (.str id) ∧ Tasks.IsDue w' id earlyMoment)
    ∧ ∃ result w',
      (dispatch {} bringForward Tasks.plannedTask [] none none).run plannedWorld = (.ok result, w')
        ∧ result.get? "new_due_date" = some (.str "0042-02-28T18:30:00.000001+00:00")
        ∧ Tasks.IsDue w' "task_1" earlyMoment := by
  obtain ⟨hfixed, hactions⟩ := resolved_dates_last
  have hiso : earlyMoment.iso = "0042-02-28T18:30:00.000001+00:00" := by decide +kernel
  have hplain : Template.hasPlaceholder earlyText = false := by decide +kernel
  have hearly : DueDate.resolve Tasks.emptyWorld.clock (.str earlyText) = some earlyMoment := by
    decide +kernel
  refine ⟨hfixed (.value (.str earlyText)) Tasks.emptyWorld.clock earlyMoment nofun
    (congrArg Except.ok hearly), ?_, ?_⟩
  · obtain ⟨result, w', hrun⟩ :=
      exists_result (p := dispatch {} earlyTask overdueTask.task [] none none) (w := blankWorld)
        (by decide +kernel)
    obtain ⟨hcreate, -⟩ := hactions {} earlyTask overdueTask.task [] none none blankWorld w' result
      earlyText earlyMoment (DueDate.inUtc_of_shows (by decide)) rfl hplain (by decide +kernel) hrun
    obtain ⟨htold, id, hid, hdue⟩ := hcreate rfl rfl
    exact ⟨result, w', id, hrun, hiso ▸ htold, hid, hdue⟩
  · obtain ⟨result, w', hrun⟩ :=
      exists_result (p := dispatch {} bringForward Tasks.plannedTask [] none none) (w := plannedWorld)
        (by decide +kernel)
    have hclock : plannedWorld.clock = Tasks.emptyWorld.clock := run_clock _ _
    obtain ⟨-, hreschedule⟩ := hactions {} bringForward Tasks.plannedTask [] none none plannedWorld w'
      result earlyText earlyMoment (hclock ▸ DueDate.inUtc_of_shows (by decide)) rfl hplain
      (by rw [Option.getD_none, hclock]; exact hearly) hrun
    obtain ⟨w₁, hsave, hkeeps⟩ :=
      Tasks.run_save_document (w := Tasks.emptyWorld) Tasks.plannedTask none rfl
    have hplanned : plannedWorld = w₁ := congrArg Prod.snd hsave
    obtain ⟨htold, hdue⟩ := hreschedule rfl rfl ⟨Tasks.plannedTask, rfl, hplanned ▸ hkeeps⟩
    exact ⟨result, w', hrun, hiso ▸ htold, hdue⟩

end Engine

end TaskAutomation
