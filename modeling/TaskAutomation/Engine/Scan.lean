import TaskAutomation.Engine.Run
import TaskAutomation.Store.Tasks
import TaskAutomation.Value.Writer

/-!
# Scans

* `Scan.taskCompleted`, `Scan.statusChanged`, `Scan.timeTracked` : the triggers of events on a task;
* `Scan.user` : the triggers of one user's tasks that are overdue or due soon, with a limit on the
  tasks of both together, the overdue ones first;
* `Scan.all` : every user with an active rule on these triggers, up to a number of users;
* `Scan.Report` : what a scan came to.

A task that fails does not end the scan of its user, nor does a user that of the others.
-/

namespace TaskAutomation.Scan

open Program

/-- An operation of the scanner. -/
def operation (name : String) : Operation := ⟨"scanner", name⟩

/-- Processes a trigger as it comes. -/
def handle (e : Engine) (x : Occurrence) : Program TriggerOutcome :=
  (operation "handle").guard none (e.process x false)

/-- A trigger at this moment. -/
def occurrence (event : Trigger) (task : Task) (previous : Option Fields)
    (entry : Option TimeEntry) (metadata : Fields) : Program Occurrence := do
  return ⟨event, task, previous, entry, metadata, ← now⟩

/-- A task was completed. -/
def taskCompleted (e : Engine) (task : Task) (metadata : Fields) : Program TriggerOutcome :=
  (operation "task_completed").guard none do
    handle e (← occurrence .taskCompleted task none none metadata)

/-- The status of a word. -/
def statusOf (v : Value) : Except Failure TaskStatus :=
  let found := match v with
    | .str s => TaskStatus.ofName? s
    | _ => none
  match found with
  | some s => .ok s
  | none => .error (.noMember v "TaskStatus")

/-- The status of a task changed from an old one; nothing runs if it is the same. -/
def statusChanged (e : Engine) (task : Task) (oldStatus : Value) (previous metadata : Fields) :
    Program TriggerOutcome :=
  (operation "status_changed").guard none do
    let old ← ofExcept (statusOf oldStatus)
    if old = task.status then return { trigger := .statusChanged, taskId := task.id }
    else
      let before := Fields.put previous "status" (.str old.name)
      handle e (← occurrence .statusChanged task (some before) none metadata)

/-- Time was tracked on a task. -/
def timeTracked (e : Engine) (task : Task) (entry : TimeEntry) (metadata : Fields) :
    Program TriggerOutcome :=
  (operation "time_tracked").guard none do
    handle e (← occurrence .timeTracked task none (some entry) metadata)

/-! ## Scheduled scans -/

/-- What the scan of a user came to. -/
structure UserReport where
  userId : String
  tasks : Nat := 0
  executed : Nat := 0
  errors : List String := []

/-- What the scan of a task came to: the rules that ran, and an error. -/
structure TaskReport where
  executed : Nat := 0
  error : Option String := none

/-- Processes the trigger of a task that a scan found. -/
def task (e : Engine) (moment : Moment) (event : Trigger) (t : Task) : Program TaskReport := do
  match ← attempt (e.process ⟨event, t, none, none, [], moment.inUtc⟩ true) with
  | .ok outcome =>
    return { executed := outcome.executedCount,
             error := outcome.error.map fun m => t.id ++ ": " ++ m }
  | .error f => return { error := some (t.id ++ ": " ++ f.message) }

/-- A moment some days later on the same clock. -/
def daysAfter (moment : Moment) (days : Int) : Except Failure Moment :=
  if 999999999 < days then .error (.spanOverflow days)
  else match moment.add? (days * Moment.day) with
  | some m => .ok m
  | none => .error .dateOverflow

/-- The sum of some numbers. -/
def total (ns : List Nat) : Nat := ns.foldr (· + ·) 0

/-- Scans the tasks of one user. -/
def user (e : Engine) (userId : String) (moment : Moment) : Program UserReport :=
  (operation "scan_user").guard (some (.str userId)) do
    let limit := e.settings.scanMaxTasksPerUser.toNat
    let overdue ← Tasks.overdue userId moment
    let stop ← ofExcept (daysAfter moment e.settings.dueSoonDays)
    let soon ← Tasks.dueWithin userId moment stop
    let overdue := overdue.take limit
    let soon := soon.take (limit - overdue.length)
    let late ← each (task e moment .taskOverdue) overdue
    let near ← each (task e moment .dueDateApproaching) soon
    let reports := late ++ near
    return { userId, tasks := reports.length, executed := total (reports.map TaskReport.executed),
             errors := reports.filterMap TaskReport.error }

/-- Scans the tasks of one user; a failure becomes the report. -/
def userSafely (e : Engine) (moment : Moment) (userId : String) : Program UserReport := do
  match ← attempt (user e userId moment) with
  | .ok report => return report
  | .error f => return { userId, errors := [f.message] }

/-- What a scan came to. -/
structure Report where
  users : List UserReport

/-- Scans every user with an active rule on a scheduled trigger. -/
def all (e : Engine) (moment : Moment) : Program Report :=
  (operation "run_scheduled_scan").guard none do
    let users ← Rules.usersWithActive Trigger.scheduled
    let reports ← each (userSafely e moment) (users.take e.settings.scanMaxUsers.toNat)
    count .scan
    return ⟨reports⟩

/-- A user's report as an object. -/
def UserReport.value (r : UserReport) : Value :=
  .obj [("user_id", .str r.userId), ("tasks_scanned", .int r.tasks),
    ("automations_executed", .int r.executed), ("errors", .ofTexts r.errors)]

namespace Report

/-- The report as an object; no time passes on the clock during a scan. -/
def value (r : Report) : Value :=
  .obj [("users_processed", .int r.users.length),
    ("automations_executed", .int (total (r.users.map UserReport.executed))), ("duration_ms", .int 0),
    ("results", .list (r.users.map UserReport.value))]

/-- The report as it is printed. -/
def text (r : Report) : String := r.value.indented

end Report

end TaskAutomation.Scan
