import TaskAutomation.Rule

/-!
# The catalog of triggers

* `Catalog.Entry` : what an author of rules is told about a trigger;
* `Catalog.entry` : the entry of each trigger, and `Catalog.entries` all of them in order.
-/

namespace TaskAutomation.Catalog

/-- What is told about a trigger. -/
structure Entry where
  trigger : Trigger
  name : String
  description : String
  conditions : List String
  actions : List ActionType
  deriving DecidableEq, Repr

/-- The entry of a trigger. -/
def entry : Trigger → Entry
  | .taskCompleted =>
    ⟨.taskCompleted, "Task Completed", "Triggered when a task is marked as completed",
      ["task.priority", "task.tag", "task.client_id", "task.parent_task_id"],
      [.createTask, .sendNotification, .updateRelatedTasks, .createFollowUp, .updateDependencies]⟩
  | .taskOverdue =>
    ⟨.taskOverdue, "Task Overdue", "Triggered when a task becomes overdue",
      ["task.priority", "task.tag", "task.client_id", "days_overdue"],
      [.updatePriority, .sendNotification, .reschedule, .assignUser]⟩
  | .statusChanged =>
    ⟨.statusChanged, "Status Changed", "Triggered when a task status changes",
      ["from_status", "to_status", "task.status", "task.priority", "task.client_id"],
      [.createTask, .sendNotification, .updateDependencies, .logActivity]⟩
  | .timeTracked =>
    ⟨.timeTracked, "Time Tracked", "Triggered when time is tracked on a task",
      ["time_entry.duration", "task.estimated_hours", "task.actual_hours"],
      [.sendNotification, .updateEstimates, .createReport]⟩
  | .dueDateApproaching =>
    ⟨.dueDateApproaching, "Due Date Approaching", "Triggered when a task due date is approaching",
      ["days_until_due", "task.priority", "task.status", "task.client_id"],
      [.sendNotification, .updatePriority, .createReminder]⟩

/-- Every entry, in the order of the triggers. -/
def entries : List Entry := Trigger.all.map entry

/-- An entry as an object. -/
def Entry.value (e : Entry) : Value :=
  .obj [("id", .str e.trigger.name), ("name", .str e.name), ("description", .str e.description),
    ("available_conditions", .ofTexts e.conditions),
    ("available_actions", .ofTexts (e.actions.map ActionType.name))]

end TaskAutomation.Catalog
