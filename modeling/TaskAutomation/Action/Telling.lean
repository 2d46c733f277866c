import TaskAutomation.Action.Change
import TaskAutomation.Store.Inbox
import TaskAutomation.Store.Timeline

/-!
# Actions that tell

* `Telling.notification`, `Telling.report`, `Telling.reminder` : a message to each recipient, with a
  link to the task; only those within the limit of their inbox are reached;
* `Telling.Summary` : the time and progress of a task, as reports show it;
* `Telling.activity` : an entry of the task's timeline; where it cannot be made, that is the result.
-/

namespace TaskAutomation.Telling

open Program

/-- One message to each recipient; gives those who were reached. -/
def tell (recipients : List Value) (title message : Value) (url : Value) (t : Task) (o : Occasion) :
    Program (List Value) := do
  let sent ← each (fun user => do
    let url ← if url.truthy then pure url else o.link t.id
    return (user, ← Inbox.notify o.settings user title message (some t.id) url)) recipients
  return (sent.filter (·.2)).map (·.1)

/-- A message of the rule's own. -/
def notification (p : Parameters) (t : Task) (o : Occasion) : Program Fields := do
  let default := match o.rule with
    | some r => "Automation: " ++ r.name
    | none => "Task automation"
  let title := (← p.need "title").orElse (.str default)
  let message ← p.need "message"
  let url ← p.need "action_url"
  let reached ← tell (p.recipients t) title message url t o
  return [("notification_sent", .bool !reached.isEmpty), ("recipient_count", .count reached),
    ("recipients", .list reached), ("message", message), ("type", ← p.need "type")]

/-! ## Reports -/

/-- The time and progress of a task. -/
structure Summary where
  task : Task
  variance : Option Float
  daysUntilDue : Value
  minutes : Value
  generatedAt : Moment

namespace Summary

/-- The minutes of the time entry in a context. -/
def minutesOf (entry : Value) : Except Failure Value :=
  match entry with
  | .obj fields => .ok ((Fields.get? fields "duration").getD .null)
  | v => if v.truthy then .error (.noAttribute (Check.kindName v) "get") else .ok .null

/-- The summary of a task on an occasion. -/
def of (t : Task) (o : Occasion) : Except Failure Summary := do
  let minutes ← minutesOf (o.field "time_entry")
  return {
    task := t
    variance := t.estimatedHours.map fun hours => Decimal.round2 (t.actualHours - hours)
    daysUntilDue := o.field "days_until_due"
    minutes
    generatedAt := o.now }

/-- The summary as an object. -/
def value (s : Summary) : Value :=
  .obj [("task_id", .str s.task.id), ("title", .str s.task.title),
    ("status", .str s.task.status.name), ("priority", .str s.task.priority.name),
    ("estimated_hours", Task.numberOrNull s.task.estimatedHours),
    ("actual_hours", .float s.task.actualHours), ("variance_hours", Task.numberOrNull s.variance),
    ("progress_percentage", .int s.task.progress), ("due_date", Change.momentValue s.task.dueDate),
    ("days_until_due", s.daysUntilDue), ("time_entry_minutes", s.minutes),
    ("generated_at", .str s.generatedAt.iso)]

/-- A line with a name in front. -/
def line (name text : String) : String := "**" ++ name ++ ":** " ++ text

/-- The lines about an estimate. -/
def estimateLines (s : Summary) : List String :=
  match s.task.estimatedHours, s.variance with
  | some hours, some variance =>
    [line "Estimated Hours" (Decimal.write hours), line "Variance" (Decimal.writeSigned variance)]
  | _, _ => []

/-- The summary as a message. -/
def message (s : Summary) : String :=
  String.intercalate "\n" (["**" ++ s.task.title ++ "**", "", line "Status" s.task.status.name,
    line "Priority" s.task.priority.name, line "Progress" (toString s.task.progress ++ "%"),
    line "Actual Hours" (Decimal.write s.task.actualHours)] ++ s.estimateLines
    ++ (match s.task.dueDate with
      | some due => [line "Due" due.iso]
      | none => []))

end Summary

/-- A summary of the task. -/
def report (p : Parameters) (t : Task) (o : Occasion) : Program Fields := do
  let summary ← ofExcept (Summary.of t o)
  let title := (← p.need "title").orElse (.str ("Task report: " ++ t.title))
  let reached ← tell (p.recipients t) title (.str summary.message) .null t o
  return [("report", summary.value), ("notification_sent", .bool !reached.isEmpty),
    ("recipient_count", .count reached)]

/-! ## Reminders -/

/-- A date as year, month and day, the year in as many digits as it has. -/
def shortDate (d : Date) : String :=
  toString d.year ++ "-" ++ Moment.digits 2 d.month ++ "-" ++ Moment.digits 2 d.day

/-- What a reminder says where no message is given. -/
def reminderText (t : Task) : String :=
  "Reminder: " ++ t.title ++ (match t.dueDate with
    | some due => " is due " ++ shortDate due.date
    | none => "")

/-- A message that names the moment to remind at. -/
def reminder (p : Parameters) (t : Task) (o : Occasion) : Program Fields := do
  let moment ← o.dueDate ((← p.need "remind_at").orElse (.str o.settings.reminderDue))
  let message := (← p.need "message").orElse (.str (reminderText t))
  let text := message.text ++ " (remind at " ++ moment.text ++ ")"
  let title ← p.need "title"
  let reached ← tell (p.recipients t) title (.str text) .null t o
  return [("reminder_sent", .bool !reached.isEmpty), ("remind_at", moment),
    ("recipients", .list reached)]

/-! ## Timelines -/

/-- What is noted with an entry of the timeline. -/
def metadata (given : Value) (o : Occasion) : Except Failure Fields :=
  match given with
  | .obj fields =>
    let noted := Fields.put fields "event" (o.field "event")
    match o.rule with
    | some r => .ok (Fields.put (Fields.put noted "rule_id" (.str r.id)) "rule_name" (.str r.name))
    | none => .ok noted
  | v => .error (.notMapping (Check.kindName v))

/-- An entry of the task's timeline. -/
def activity (p : Parameters) (t : Task) (o : Occasion) : Program Fields := do
  let noted ← ofExcept (metadata (← p.need "metadata") o)
  let entry : Program String := do
    let type ← p.need "activity_type"
    let description ← p.need "description"
    Timeline.append t.id (.str (o.actor t)) type description (.obj noted)
  match ← attempt entry with
  | .ok id => return [("logged", .bool true), ("activity_id", .str id)]
  | .error f => return [("logged", .bool false), ("error", .str f.message)]

end TaskAutomation.Telling
