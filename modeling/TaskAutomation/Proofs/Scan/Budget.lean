import TaskAutomation.Engine.Scan
import TaskAutomation.Proofs.Program.Answers
import TaskAutomation.Proofs.Tasks.Due

/-!
# Which tasks a scan fires for

* `Tasks.strict_overdue`, `Tasks.strict_dueWithin` : the queries of a scan answer only where nothing
  was refused; `Tasks.queries_apart` : no task is in the answers of both;
* `Scan.Firing` : a trigger that was fired for a task, and what came of it; `Scan.firings_of_each` : a
  loop over tasks fires for each of them, in order, whatever comes of it;
* `Scan.plan limit late soon` : what is to be fired where the limit is shared by two kinds of tasks;
* `Scan.user_fires` : the scan of a user fires as planned.
-/

namespace TaskAutomation

open Check Program

/-! ## Queries -/

namespace Tasks

theorem strict_get (id : String) : (get id).Strict := by
  refine .guarded (.bind (.store _) fun cell => ?_)
  split
  · exact .bind .setting fun s => .bind (.ofChecked _ _) fun t => .done _
  · exact .done _

theorem strict_getMany (ids : List String) : (getMany ids).Strict :=
  .guarded (.bind (.each strict_get) fun _ => .done _)

theorem strict_overdue (userId : String) (asOf : Moment) : (overdue userId asOf).Strict :=
  .guarded (.bind (.store _) fun _ => .bind (strict_getMany _) fun _ => .done _)

theorem strict_dueWithin (userId : String) (start stop : Moment) :
    (dueWithin userId start stop).Strict :=
  .guarded (.bind (.store _) fun _ => .bind (strict_getMany _) fun _ => .done _)

variable {w : World} {m : String → Option Task} {userId : String}

/-- Members of a due index of two kinds are different tasks. -/
theorem nodup_kinds (h : Indexed w.store m) {members : List Scored}
    (hmembers : (members.map Scored.member).Nodup) {f g : Scored → Bool}
    (hfg : ∀ a, f a = true → g a = false) :
    ((openTasks m (members.filter f) ++ openTasks m (members.filter g)).map Task.id).Nodup := by
  rw [← openTasks_append]
  refine List.Nodup.sublist (ids_openTasks h _) ?_
  rw [List.map_append, List.nodup_append']
  refine ⟨hmembers.sublist (List.filter_sublist.map _), hmembers.sublist (List.filter_sublist.map _), ?_⟩
  rintro id hleft hright
  obtain ⟨a, ha, rfl⟩ := List.mem_map.mp hleft
  obtain ⟨b, hb, hid⟩ := List.mem_map.mp hright
  obtain ⟨ha, hfa⟩ := List.mem_filter.mp ha
  obtain ⟨hb, hgb⟩ := List.mem_filter.mp hb
  have heq : b = a := List.inj_on_of_nodup_map hmembers hb ha hid
  rw [heq, hfg a hfa] at hgb
  cases hgb

/-- What is overdue and what is due from then on are answered without a change, and no task is in both
answers. -/
theorem queries_apart (h : Indexed w.store m) (ho : w.outages = []) (userId : String)
    (asOf stop : Moment) : ∃ late soon, (overdue userId asOf).run w = (.ok late, w)
      ∧ (dueWithin userId asOf stop).run w = (.ok soon, w)
      ∧ ((late ++ soon).map Task.id).Nodup := by
  obtain ⟨members, hkeeps, horder, -⟩ := h.due userId
  refine ⟨_, _, Documents.run_overdue h.document ho hkeeps asOf,
    Documents.run_dueWithin h.document ho hkeeps asOf stop, nodup_kinds h horder.once fun a ha => ?_⟩
  simp only [Scored.atLeast, ha, Bool.not_true, Bool.false_and]

end Tasks

/-! ## Firings -/

namespace Scan

variable {e : Engine} {moment : Moment}

/-- A trigger that was fired for a task, what came of it, and the calls that it took. -/
structure Firing where
  event : Trigger
  task : Task
  outcome : Except Failure TriggerOutcome
  log : List Entry

namespace Firing

/-- The rules of the task's owner were tried on the trigger, once a day. -/
def Runs (e : Engine) (moment : Moment) (x : Firing) : Prop :=
  (e.process ⟨x.event, x.task, none, none, [], moment.inUtc⟩ true).Ends x.log x.outcome

/-- The trigger and the task. -/
def target (x : Firing) : Trigger × Task := (x.event, x.task)

/-- How many rules ran. -/
def executed (x : Firing) : Nat :=
  match x.outcome with
  | .ok o => o.executedCount
  | .error _ => 0

/-- What went wrong: the processing failed, or it reports an error. -/
def error? (x : Firing) : Option String :=
  match x.outcome with
  | .ok o => o.error
  | .error f => some f.message

/-- What went wrong, with the task. -/
def entry? (x : Firing) : Option String := x.error?.map fun m => x.task.id ++ ": " ++ m

end Firing

theorem firing_of_task {event : Trigger} {t : Task} {log : List Entry}
    {result : Except Failure TaskReport} (h : (task e moment event t).Ends log result) :
    ∃ x : Firing, x.target = (event, t) ∧ x.log = log ∧ x.Runs e moment
      ∧ result = .ok ⟨x.executed, x.entry?⟩ := by
  let firing outcome : Firing := ⟨event, t, outcome, log⟩
  obtain ⟨outcome, hprocess, rfl⟩ := Ends.of_attempt_told
    (f := fun outcome => ⟨(firing outcome).executed, Firing.entry? (firing outcome)⟩)
    (by rintro (_ | _) <;> rfl) h
  exact ⟨firing outcome, rfl, rfl, hprocess, rfl⟩

/-- A trigger is fired for each of some tasks in order, whatever comes of it. -/
theorem firings_of_each {event : Trigger} {ts : List Task} {log : List Entry}
    {result : Except Failure (List TaskReport)}
    (h : (each (task e moment event) ts).Ends log result) :
    ∃ firings : List Firing, log = firings.flatMap Firing.log ∧ (∀ x ∈ firings, x.Runs e moment)
      ∧ firings.map Firing.target = ts.map (event, ·)
      ∧ result = .ok (firings.map fun x => ⟨x.executed, x.entry?⟩) :=
  Ends.of_each (fun _ _ _ => firing_of_task) h

/-! ## The budget -/

/-- The tasks to fire for where those that are late and those that are soon share a limit, the late
ones first. -/
def plan (limit : Nat) (late soon : List Task) : List (Trigger × Task) :=
  (late.take limit).map (.taskOverdue, ·) ++
    (soon.take (limit - min limit late.length)).map (.dueDateApproaching, ·)

theorem length_plan (limit : Nat) (late soon : List Task) :
    (plan limit late soon).length = min limit (late.length + soon.length) := by
  unfold plan
  rw [List.length_append, List.length_map, List.length_map, List.length_take, List.length_take]
  omega

/-- No task is fired for twice where no id comes twice. -/
theorem nodup_plan (limit : Nat) {late soon : List Task} (h : ((late ++ soon).map Task.id).Nodup) :
    ((plan limit late soon).map fun x => x.2.id).Nodup := by
  refine h.sublist ?_
  unfold plan
  rw [List.map_append, List.map_append, List.map_map, List.map_map]
  exact ((List.take_sublist _ _).map _).append ((List.take_sublist _ _).map _)

/-! ## The scan of a user -/

/-- What a scan does once it has the tasks. -/
def fire (e : Engine) (userId : String) (moment : Moment) (late soon : List Task) :
    Program UserReport := do
  let limit := e.settings.scanMaxTasksPerUser.toNat
  let overdue := late.take limit
  let soon := soon.take (limit - overdue.length)
  let late ← each (task e moment .taskOverdue) overdue
  let near ← each (task e moment .dueDateApproaching) soon
  let reports := late ++ near
  return { userId, tasks := reports.length, executed := total (reports.map TaskReport.executed),
           errors := reports.filterMap TaskReport.error }

theorem user_eq (userId : String) : user e userId moment =
    (operation "scan_user").guard (some (.str userId)) (do
      let overdue ← Tasks.overdue userId moment
      let stop ← ofExcept (daysAfter moment e.settings.dueSoonDays)
      let soon ← Tasks.dueWithin userId moment stop
      fire e userId moment overdue soon) := rfl

/-- What a scan that fired some triggers reports. -/
def reportOf (userId : String) (firings : List Firing) : UserReport where
  userId := userId
  tasks := firings.length
  executed := total (firings.map Firing.executed)
  errors := firings.filterMap Firing.entry?

/-- Once it has the tasks, a scan fires as planned and reports what came of it. -/
theorem firings_of_fire {userId : String} {late soon : List Task} {log : List Entry}
    {result : Except Failure UserReport} (h : (fire e userId moment late soon).Ends log result) :
    ∃ firings : List Firing, log = firings.flatMap Firing.log ∧ (∀ x ∈ firings, x.Runs e moment)
      ∧ firings.map Firing.target = plan e.settings.scanMaxTasksPerUser.toNat late soon
      ∧ result = .ok (reportOf userId firings) := by
  rcases Ends.of_bind h with ⟨f, hfail, -⟩ | ⟨first, rest, reports, rfl, hfirst, h⟩
  · obtain ⟨_, -, -, -, heq⟩ := firings_of_each hfail
    cases heq
  rcases Ends.of_bind h with ⟨f, hfail, -⟩ | ⟨second, last, reports', rfl, hsecond, rfl, rfl⟩
  · obtain ⟨_, -, -, -, heq⟩ := firings_of_each hfail
    cases heq
  obtain ⟨firings, rfl, hruns, htargets, heq⟩ := firings_of_each hfirst
  cases heq
  obtain ⟨firings', rfl, hruns', htargets', heq⟩ := firings_of_each hsecond
  cases heq
  refine ⟨firings ++ firings', ?_, ?_, ?_, ?_⟩
  · rw [List.flatMap_append, List.append_nil]
  · intro x hx
    exact (List.mem_append.mp hx).elim (hruns x) (hruns' x)
  · rw [List.map_append, htargets, htargets', plan, List.length_take]
  · rw [← List.map_append]
    simp only [reportOf, List.length_map, List.map_map, List.filterMap_map]
    rfl

/-- What may become of the scan of a user with some tasks: it was refused a query and fired nothing, or
it fired as planned and reports what came of it. -/
inductive Scanned (e : Engine) (moment : Moment) (userId : String) (late soon : List Task) :
    List Entry → Except Failure UserReport → Prop where
  | refused {log : List Entry} {f : Failure} (hclean : ¬ Clean log)
      (hlog : ∀ n ∈ log, n.call.Discreet fun _ => False) :
      Scanned e moment userId late soon log (.error f)
  | fired {opening : List Entry} {firings : List Firing} (hclean : Clean opening)
      (hopening : ∀ n ∈ opening, n.call.Discreet fun _ => False)
      (hruns : ∀ x ∈ firings, x.Runs e moment)
      (htargets : firings.map Firing.target =
        plan e.settings.scanMaxTasksPerUser.toNat late soon) :
      Scanned e moment userId late soon (opening ++ firings.flatMap Firing.log)
        (.ok (reportOf userId firings))

/-- A scan that was refused nothing fired as planned. -/
theorem Scanned.of_clean {userId : String} {late soon : List Task} {log : List Entry}
    {result : Except Failure UserReport} (h : Scanned e moment userId late soon log result)
    (hclean : Clean log) : ∃ firings, result = .ok (reportOf userId firings)
      ∧ firings.map Firing.target = plan e.settings.scanMaxTasksPerUser.toNat late soon := by
  cases h with
  | refused hrefused => exact absurd hclean hrefused
  | @fired _ firings _ _ _ htargets => exact ⟨firings, rfl, htargets⟩

/-- The scan of a user takes the tasks that the queries answer at its start. -/
theorem scanned_of_ends {w : World} {userId : String} {stop : Moment} {late soon : List Task}
    {log : List Entry} {result : Except Failure UserReport} (ho : w.outages = [])
    (hstop : daysAfter moment e.settings.dueSoonDays = .ok stop)
    (hlate : (Tasks.overdue userId moment).run w = (.ok late, w))
    (hsoon : (Tasks.dueWithin userId moment stop).run w = (.ok soon, w))
    (h : (user e userId moment).Ends log result) (hw : w.Answers log) :
    Scanned e moment userId late soon log result := by
  rw [user_eq] at h
  rcases Ends.of_guarded h with ⟨message, rfl, rfl⟩ | ⟨rest, rfl, hbody⟩
  · refine .refused (fun hclean => hclean _ List.mem_cons_self _ _ _ _ rfl) fun n hn => ?_
    rw [List.mem_singleton.mp hn]
    trivial
  -- each query was refused, and so the scan was, or it is answered as in the world
  rcases (Tasks.strict_overdue userId moment).of_bind hlate hbody hw.2 ho with
    ⟨f, hfail, rfl, hclean⟩ | ⟨first, rest, rfl, hfirst, hclean, hw₁, hbody⟩
  · refine .refused (fun h => hclean h.tail) ?_
    exact List.forall_mem_cons.mpr ⟨trivial, hfail.within (Tasks.discreet_overdue _ _)⟩
  have hopening : ∀ n ∈ first, n.call.Discreet fun _ => False :=
    hfirst.within (Tasks.discreet_overdue _ _)
  rw [hstop] at hbody
  rcases (Tasks.strict_dueWithin userId moment stop).of_bind hsoon hbody hw₁ ho with
    ⟨f, hfail, rfl, hclean'⟩ | ⟨second, rest, rfl, hsecond, hclean', hw₂, hbody⟩
  · refine .refused (fun h => hclean' h.tail.right) ?_
    refine List.forall_mem_cons.mpr ⟨trivial, List.forall_mem_append.mpr ⟨hopening, ?_⟩⟩
    exact hfail.within (Tasks.discreet_dueWithin _ _ _)
  · obtain ⟨firings, rfl, hruns, htargets, rfl⟩ := firings_of_fire hbody
    have hall : ∀ n ∈ first ++ second, n.call.Discreet fun _ => False :=
      List.forall_mem_append.mpr ⟨hopening, hsecond.within (Tasks.discreet_dueWithin _ _ _)⟩
    rw [← List.append_assoc, ← List.cons_append]
    refine .fired ?_ (List.forall_mem_cons.mpr ⟨trivial, hall⟩) hruns htargets
    exact (Clean.entered _ _ _).append (hclean.append hclean')

/-- The scan of a user, whatever the rules do and whatever is refused on the way: it takes the open tasks
that were due before the moment, and then those due in the days from then on, as they are at its start,
up to one limit for both together, and fires for each of them once, in the order of the queries. Where
scores are exact, that is the order of due dates. The report tells the number of tasks and, in that
order, every task whose processing went wrong. -/
theorem user_fires {w : World} {m : String → Option Task} {userId : String} {stop : Moment}
    {log : List Entry} {result : Except Failure UserReport} (hindexed : Tasks.Indexed w.store m)
    (ho : w.outages = []) (hstop : daysAfter moment e.settings.dueSoonDays = .ok stop)
    (h : (user e userId moment).Ends log result) (hw : w.Answers log) :
    ∃ late soon, ((Tasks.overdue userId moment).run w).1 = .ok late
      ∧ ((Tasks.dueWithin userId moment stop).run w).1 = .ok soon
      ∧ ((plan e.settings.scanMaxTasksPerUser.toNat late soon).map fun x => x.2.id).Nodup
      ∧ (Tasks.ScoresExact (Tasks.Compared w userId [moment, stop]) →
        Tasks.Gives w (Tasks.overdue userId moment) (fun t => Tasks.IsOpen userId t ∧
            ∃ due ∈ t.dueDate, due.instant < moment.instant)
          ∧ Tasks.Gives w (Tasks.dueWithin userId moment stop) (fun t => Tasks.IsOpen userId t ∧
            ∃ due ∈ t.dueDate, moment.instant ≤ due.instant ∧ due.instant ≤ stop.instant))
      ∧ Scanned e moment userId late soon log result
      ∧ ∀ report, result = .ok report → report.tasks =
        min e.settings.scanMaxTasksPerUser.toNat (late.length + soon.length) := by
  obtain ⟨late, soon, hlate, hsoon, hnodup⟩ := Tasks.queries_apart hindexed ho userId moment stop
  have hscanned := scanned_of_ends ho hstop hlate hsoon h hw
  refine ⟨late, soon, congrArg Prod.fst hlate, congrArg Prod.fst hsoon, nodup_plan _ hnodup,
    fun hscores => ⟨?_, ?_⟩, hscanned, ?_⟩
  · exact Tasks.gives_overdue hindexed ho hscores List.mem_cons_self
  · exact Tasks.gives_dueWithin hindexed ho hscores List.mem_cons_self
      (List.mem_cons_of_mem _ (List.mem_singleton_self stop))
  · rintro report rfl
    cases hscanned with
    | fired hclean hopening hruns htargets =>
      rw [← length_plan, ← htargets, List.length_map]
      rfl

section Sample

open Tasks

/-- With a limit of one, where one task is late and one soon, a scan fires for one of them. -/
theorem user_fires_one : ∃ late soon report,
    ((overdue "user_1" (sampleHour 2)).run sampleWorld).1 = .ok late
      ∧ ((dueWithin "user_1" (sampleHour 2) (sampleHour 74)).run sampleWorld).1 = .ok soon
      ∧ (sampleTask "task_1" 1).reread ∈ late ∧ (sampleTask "task_2" 2).reread ∈ soon
      ∧ ((user { settings := { scanMaxTasksPerUser := 1 } } "user_1" (sampleHour 2)).run
        sampleWorld).1 = .ok report
      ∧ report.tasks = 1 := by
  let e : Engine := { settings := { scanMaxTasksPerUser := 1 } }
  let p := user e "user_1" (sampleHour 2)
  have hstop : daysAfter (sampleHour 2) e.settings.dueSoonDays = .ok (sampleHour 74) := rfl
  obtain ⟨hreached, hindexed⟩ := sampleWorld_indexed
  have ho := hreached.indexed.2.2.2
  have hscores : ScoresExact (Compared sampleWorld "user_1" [sampleHour 2, sampleHour 74]) :=
    scoresExact_sampleWorld (by decide)
  have hstored : ∀ id t, sampleTasks id = some t → t.id = id → Stored sampleWorld t :=
    fun id t ht hid => (stored_iff hindexed ho t).mpr (hid ▸ ht)
  obtain ⟨late, soon, hlate, hsoon, -, hgives, hscanned, htasks⟩ :=
    user_fires hindexed ho hstop (p.ends_trace sampleWorld) (World.answers_trace p sampleWorld)
  obtain ⟨⟨late', hlate', -, -, hmem⟩, soon', hsoon', -, -, hmem'⟩ := hgives hscores
  cases hlate.symm.trans hlate'
  cases hsoon.symm.trans hsoon'
  have hfirst : (sampleTask "task_1" 1).reread ∈ late :=
    (hmem _).mpr ⟨hstored "task_1" _ rfl rfl, ⟨rfl, rfl⟩, _, rfl, by decide⟩
  have hsecond : (sampleTask "task_2" 2).reread ∈ soon :=
    (hmem' _).mpr ⟨hstored "task_2" _ rfl rfl, ⟨rfl, rfl⟩, _, rfl, by decide, by decide⟩
  obtain ⟨firings, hresult, -⟩ := hscanned.of_clean (clean_trace _ ho)
  refine ⟨late, soon, _, hlate, hsoon, hfirst, hsecond, hresult, ?_⟩
  have hlength := List.length_pos_of_mem hfirst
  rw [htasks _ hresult]
  show min 1 (late.length + soon.length) = 1
  omega

end Sample

end Scan

end TaskAutomation
