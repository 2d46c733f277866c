import TaskAutomation.Rule

/-!
# The parameters of actions

* `Parameter` : the name of a parameter, how its value is checked, and what stands for it when it is
  absent;
* `ActionType.parameters` : the parameters of each type of action;
* `Parameters.read` : the parameters of an action, checked for its type; an unknown type takes any;
* `Parameters.get?` : a parameter by name. Parameters beyond the declared ones are kept.
-/

namespace TaskAutomation

open Check

/-- One parameter of a type of action. -/
structure Parameter where
  name : String
  check : Checker Value
  /-- What stands for an absent parameter; without it the parameter is required. -/
  absent : Option Value := none
  /-- The value is one of a closed set of words. -/
  isWord : Bool := false
  /-- How the value is shown. -/
  shown : Value → Value := id

namespace Parameter

/-- A text that has to be there and is not empty. -/
def requiredText (name : String) : Parameter :=
  { name, check := fun s v => (textWithin 1 none s v).map .str }

/-- A text with a default. -/
def textOr (name default : String) : Parameter :=
  { name, check := fun s v => (text s v).map .str, absent := some (.str default) }

/-- A text that may be absent or null. -/
def textOrNull (name : String) : Parameter :=
  { name, check := fun s v => (nullable text s v).map .ofText?, absent := some .null }

/-- One of a closed set of words. -/
def word {α : Type} (name : String) (check : Checker α) (word : α → String)
    (absent : Option Value) : Parameter :=
  { name, check := fun s v => (check s v).map fun a => .str (word a), absent, isWord := true }

/-- One of some words that may be absent or null. -/
def wordOrNull (name : String) (choices : List String) : Parameter :=
  { name, check := fun s v => (nullable (literal choices) s v).map .ofText?, absent := some .null }

/-- A number of hours, not negative, that may be absent or null. -/
def hoursOrNull (name : String) : Parameter where
  name := name
  check s v := (nullable (boundedNumber { least := some 0 }) s v).map Task.numberOrNull
  absent := some .null

/-- The parameter in the fields of an object. -/
def read (p : Parameter) (s : Setting) (f : Fields) : Checked Value :=
  match p.absent with
  | some v => optional s f p.name v p.check
  | none => required s f p.name p.check

/-- The declared parameters among some fields, and then the other fields. -/
def readAll (ps : List Parameter) (s : Setting) (f : Fields) : Checked Fields :=
  let declared := ps.foldr (fun p rest => (p.read s f).both (fun v vs => (p.name, v) :: vs) rest)
    (.ok [])
  declared.map (· ++ others (ps.map name) f)

/-- Fields that have been read, as they are shown. -/
def showAll (ps : List Parameter) (f : Fields) : Fields :=
  f.map fun (k, v) =>
    match ps.find? (·.name == k) with
    | some p => (k, p.shown v)
    | none => (k, v.storable)

/-- The parameters of one subtask. -/
def ofSubtask : List Parameter :=
  [requiredText "title", textOrNull "description", textOrNull "client_id",
    word "priority" TaskPriority.check TaskPriority.name (some (.str "medium")),
    textOrNull "tag", textOrNull "due_date", hoursOrNull "estimated_hours"]

/-- A subtask as it is shown. -/
def showSubtask : Value → Value
  | .obj fields => .obj (showAll ofSubtask fields)
  | v => v

/-- A list of subtasks, at least one. -/
def subtasks : Parameter where
  name := "subtasks"
  check s v :=
    (itemsAtLeast 1 (fun s v =>
      (record "SubtaskSpec" s v).andThen fun f => (readAll ofSubtask s f).map .obj) s v).map .list
  shown v := match v with
    | .list items => .list (items.map showSubtask)
    | v => v

/-- Who is told: the users assigned to the task, or its owner. -/
def recipients : List Parameter :=
  [wordOrNull "recipient" ["assignees", "owner"], textOrNull "recipient_id"]

end Parameter

/-- The fields of related tasks that can be updated together. -/
def relatedFields : List String := ["status", "priority", "tag", "due_date", "estimated_hours"]

namespace ActionType

open Parameter

/-- The parameters that a type of action declares. -/
def parameters : ActionType → List Parameter
  | .createTask =>
    [requiredText "title", textOrNull "description", textOrNull "client_id",
      word "priority" TaskPriority.check TaskPriority.name (some (.str "medium")),
      word "status" TaskStatus.check TaskStatus.name (some (.str "pending")),
      textOr "tag" "follow-up", textOrNull "due_date", hoursOrNull "estimated_hours",
      textOrNull "parent_task_id"]
  | .createFollowUp =>
    [textOrNull "title", textOrNull "description", textOrNull "client_id",
      word "priority" TaskPriority.check TaskPriority.name (some (.str "medium")),
      textOr "tag" "follow-up", textOrNull "due_date", hoursOrNull "estimated_hours"]
  | .createSubtasks => [subtasks]
  | .updateStatus => [word "status" TaskStatus.check TaskStatus.name none]
  | .updatePriority => [word "priority" TaskPriority.check TaskPriority.name none]
  | .sendNotification =>
    [textOrNull "title", textOr "message" "Task notification", textOr "type" "general"]
      ++ recipients ++ [textOrNull "action_url"]
  | .assignUser => [requiredText "user_id"]
  | .reschedule => [requiredText "due_date"]
  | .addDependency => [requiredText "depends_on_task_id", textOrNull "task_id"]
  | .updateRelatedTasks =>
    [{ name := "field", check := fun s v => (literal relatedFields s v).map .str },
      { name := "value", check := any, shown := Value.storable },
      wordOrNull "relationship" ["client", "parent"]]
  | .updateDependencies =>
    [{ name := "auto_start", check := fun s v => (boolean s v).map .bool,
       absent := some (.bool false) }]
  | .logActivity =>
    [textOr "activity_type" "automation", textOr "description" "Automation rule executed",
      { name := "metadata", check := fun s v => (object s v).map .obj, absent := some (.obj []),
        shown := Value.storable }]
  | .updateEstimates =>
    [hoursOrNull "estimated_hours",
      { name := "buffer_percent",
        check := fun s v => (boundedNumber { least := some 0 } s v).map .float,
        absent := some (.float 20.0) }]
  | .createReport => textOrNull "title" :: recipients
  | .createReminder =>
    [textOr "title" "Reminder", textOrNull "message", textOrNull "remind_at"] ++ recipients

/-- The name of the record that holds the parameters of a type of action. -/
def recordName : ActionType → String
  | .createTask => "CreateTaskParams"
  | .updateStatus => "UpdateStatusParams"
  | .updatePriority => "UpdatePriorityParams"
  | .sendNotification => "SendNotificationParams"
  | .assignUser => "AssignUserParams"
  | .createFollowUp => "CreateFollowUpParams"
  | .reschedule => "RescheduleParams"
  | .addDependency => "AddDependencyParams"
  | .createSubtasks => "CreateSubtasksParams"
  | .updateRelatedTasks => "UpdateRelatedTasksParams"
  | .updateDependencies => "UpdateDependenciesParams"
  | .logActivity => "LogActivityParams"
  | .updateEstimates => "UpdateEstimatesParams"
  | .createReport => "CreateReportParams"
  | .createReminder => "CreateReminderParams"

/-- The set of words that the value of a related field has to be in. -/
def valueSet? : String → Option (String × List String)
  | "status" => some ("TaskStatus", TaskStatus.all.map TaskStatus.name)
  | "priority" => some ("TaskPriority", TaskPriority.all.map TaskPriority.name)
  | _ => none

/-- What is wrong with the parameters of a type of action taken together. -/
def clash? (type : ActionType) (f : Fields) : Option String :=
  match type, f.get? "field", f.get? "value" with
  | .updateRelatedTasks, some (.str field), some value =>
    (valueSet? field).bind fun (set, words) =>
      match value with
      | .str s => if words.contains s then none
        else some (value.quoted ++ " is not a valid " ++ set)
      | v => some (v.quoted ++ " is not a valid " ++ set)
  | _, _, _ => none

end ActionType

/-- Parameters that have been read: the name of the record that holds them, those that it declares,
and the values of all. -/
structure Parameters where
  recordName : String
  declared : List Parameter
  fields : Fields

namespace Parameters

/-- The parameters of an action of a known type. -/
def readFor (type : ActionType) (s : Setting) (f : Fields) : Checked Parameters :=
  (Parameter.readAll type.parameters s f).andThen fun fields =>
    match type.clash? fields with
    | some message => .fault (.refused message) (.obj f)
    | none => .ok ⟨type.recordName, type.parameters, fields⟩

/-- The parameters of an action; an unknown type takes any. -/
def read (type : String) (s : Setting) (f : Fields) : Checked Parameters :=
  match ActionType.ofName? type with
  | some t => readFor t s f
  | none => .ok ⟨"RawParameters", [], f⟩

/-- The parameters of one subtask that have been read as part of those of an action. -/
def ofSubtask (f : Fields) : Parameters := ⟨"SubtaskSpec", Parameter.ofSubtask, f⟩

/-- A parameter by name. -/
def get? (p : Parameters) (name : String) : Option Value := p.fields.get? name

/-- The parameters as an object. -/
def value (p : Parameters) : Value := .obj (Parameter.showAll p.declared p.fields)

/-- The parameter is one that the record declares. -/
def declares (p : Parameters) (name : String) : Bool := p.declared.any (·.name == name)

/-- The parameter is one of a closed set of words. -/
def isWord (p : Parameters) (name : String) : Bool :=
  p.declared.any fun d => d.name == name && d.isWord

end Parameters

/-- Those who are told about a task: a recipient given by id, or the users assigned to the task, or
its owner, the owner also where nobody is assigned. -/
def Parameters.recipients (p : Parameters) (task : Task) : List Value :=
  match (p.get? "recipient_id").filter Value.truthy with
  | some id => [id]
  | none =>
    let owner := [Value.str task.userId]
    match p.get? "recipient" with
    | some (.str "assignees") =>
      let assignees := task.assigneeIds.eraseDups
      if assignees.isEmpty then owner else assignees.map .str
    | _ => owner

end TaskAutomation
