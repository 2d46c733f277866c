import TaskAutomation.Trigger

/-!
# Suggestions

* `Suggestion` : a rule that a user's tasks give reason for, and how many of them do;
* `Suggestion.ofTasks reference tasks` : follow-ups after more than three completed meetings or
  calls, and care for more than two open tasks whose due date lies before the reference.
-/

namespace TaskAutomation

/-- A rule that a user's tasks give reason for. -/
structure Suggestion where
  type : String
  title : String
  description : String
  confidence : Float
  evidence : Nat
  rule : Fields

namespace Suggestion

/-- The tags of tasks that want a follow-up. -/
def followUpTags : List String := ["meeting", "call"]

/-- A completed meeting or call. -/
def wantsFollowUp (t : Task) : Bool :=
  t.status = .completed && (t.tag.map followUpTags.contains).getD false

/-- An open task whose due date has passed. -/
def isOverdue (reference : Moment) (t : Task) : Bool :=
  (t.dueDate.map fun due => decide (due.instant < reference.instant)).getD false && !t.isClosed

/-- The rule that creates follow-ups. -/
def followUpRule : Fields :=
  [("name", .str "Follow up after meetings and calls"), ("trigger", .str "task_completed"),
    ("conditions", .obj [("task.tag", .ofTexts followUpTags)]),
    ("actions", .list [.obj [("type", .str "create_task"),
      ("parameters", .obj [("title", .str "Follow up on \x7btask.title\x7d"),
        ("tag", .str "follow-up"), ("due_date", .str "+3 days"), ("priority", .str "medium")])]])]

/-- The rule that raises overdue tasks. -/
def overdueRule : Fields :=
  [("name", .str "Escalate overdue tasks"), ("trigger", .str "task_overdue"),
    ("conditions", .obj [("days_overdue", .obj [(">", .int 1)])]),
    ("actions", .list [
      .obj [("type", .str "update_priority"), ("parameters", .obj [("priority", .str "high")])],
      .obj [("type", .str "send_notification"), ("parameters", .obj [
        ("message", .str "Task \"\x7btask.title\x7d\" is overdue and needs attention"),
        ("type", .str "overdue_alert")])]])]

/-- Follow-ups, if enough tasks want one. -/
def followUps (tasks : List Task) : List Suggestion :=
  let n := tasks.countP wantsFollowUp
  if 3 < n then
    [⟨"follow_up_automation", "Automate Follow-up Tasks",
      "Create follow-up tasks automatically after completing meetings or calls", 0.8, n,
      followUpRule⟩]
  else []

/-- Care for overdue tasks, if there are enough of them. -/
def overdueCare (reference : Moment) (tasks : List Task) : List Suggestion :=
  let n := tasks.countP (isOverdue reference)
  if 2 < n then
    [⟨"overdue_management", "Automate Overdue Task Management",
      "Automatically increase priority and send notifications for overdue tasks", 0.7, n,
      overdueRule⟩]
  else []

/-- The suggestions for a user's tasks, the surest first. -/
def ofTasks (reference : Moment) (tasks : List Task) : List Suggestion :=
  followUps tasks ++ overdueCare reference tasks

/-- A suggestion as an object. -/
def value (s : Suggestion) : Value :=
  .obj [("type", .str s.type), ("title", .str s.title), ("description", .str s.description),
    ("confidence", .float s.confidence), ("evidence_count", .int s.evidence),
    ("suggested_rule", .obj s.rule)]

end Suggestion

end TaskAutomation
