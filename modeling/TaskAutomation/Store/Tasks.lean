import TaskAutomation.Program

/-!
# The task store

* `Tasks.get`, `Tasks.save`, `Tasks.create`, `Tasks.update`, `Tasks.createSubtask` : tasks as
  documents, indexed for each user by creation and by due date, and for each client and parent;
* `Tasks.overdue`, `Tasks.dueWithin`, `Tasks.recent`, `Tasks.dependents` : the queries that the
  indexes answer; tasks that are closed are never due;
* `Tasks.updateRelated` : one field of all tasks of a client or a parent;
* `Tasks.createDependency`, `Tasks.createAssignment` : the relations between tasks and users.
-/

namespace TaskAutomation.Tasks

open Check Program

/-- An operation of the task store. -/
def operation (name : String) : Operation := ⟨"tasks", name⟩

/-- A new id with a word in front. -/
def newId (front : String) : Program String := do
  return front ++ "_" ++ Moment.digits 12 (← fresh .task)

/-- A stored task. -/
def get (id : String) : Program (Option Task) :=
  (operation "get_task").guard (some (.str id)) do
    let cell : Option Cell ← store (.get (.taskDetail id))
    match cell.bind Cell.document? with
    | some v => return some (← ofChecked "Task" (Task.check (← setting) v))
    | none => return none

/-- The tasks of some ids that are stored. -/
def getMany (ids : List String) : Program (List Task) :=
  (operation "_get_many").guard (some (.ofTexts ids)) do
    return (← each get ids).filterMap id

/-- Takes a task out of the set it was in before, and puts it into the one it is in now. -/
def move (id : String) (key : String → Key) (old new : Option String) : Program Unit := do
  match old with
  | some o => if !o.isEmpty && old != new then store (.setRemove (key o) id)
  | none => pure ()
  match new with
  | some n => if !n.isEmpty then store (.setAdd (key n) id)
  | none => pure ()

/-- Writes a task and keeps its indexes in step with the version that it replaces. -/
def save (task : Task) (previous : Option Task) : Program Task :=
  (operation "save").guard none do
    store (.set (.taskDetail task.id) (.ofDocument task.fields))
    store (.orderedPut (.taskUser task.userId) task.id task.createdAt.timestamp)
    match task.dueDate with
    | some due => store (.orderedPut (.taskDue task.userId) task.id due.timestamp)
    | none => store (.orderedRemove (.taskDue task.userId) task.id)
    move task.id .taskClient (previous.bind Task.clientId) task.clientId
    move task.id .taskParent (previous.bind Task.parentTaskId) task.parentTaskId
    return task

/-- A new task of some fields, with a new id unless they have one. -/
def create (fields : Fields) : Program Task :=
  (operation "create_task").guard (some (.obj fields)) do
    let id ← match (fields.get? "id").filter Value.truthy with
      | some id => pure id
      | none => Value.str <$> newId "task"
    let task ← ofChecked "Task" (Task.check (← setting) (.obj (fields.put "id" id)))
    save task none

/-- A task with some fields changed, checked as a whole. -/
def revise (s : Setting) (task : Task) (fields : Fields) : Checked Task :=
  let changed := Fields.put (Fields.merge task.fields fields) "id" (.str task.id)
  Task.check s (.obj (Fields.put changed "updated_at" (.str s.now.stamp)))

/-- A stored task with some fields changed. -/
def update (id : String) (fields : Fields) : Program Task :=
  (operation "update_task").guard (some (.str id)) do
    match ← get id with
    | none => .fail (.absentKey id)
    | some existing =>
      let task ← ofChecked "Task" (revise (← setting) existing fields)
      save task (some existing)

/-- A new task under a parent. -/
def createSubtask (parentId : String) (fields : Fields) : Program Task :=
  (operation "create_subtask").guard (some (.str parentId)) do
    create (fields.put "parent_task_id" (.str parentId))

/-- The open tasks of a user that were due before a moment. -/
def overdue (userId : String) (asOf : Moment) : Program (List Task) :=
  (operation "query_overdue_tasks").guard (some (.str userId)) do
    let ids : List String ← store (.orderedBelow (.taskDue userId) asOf.timestamp)
    return (← getMany ids).filter fun t => !t.isClosed

/-- The open tasks of a user that are due between two moments, both included. -/
def dueWithin (userId : String) (start stop : Moment) : Program (List Task) :=
  (operation "query_tasks_due_within").guard (some (.str userId)) do
    let ids : List String ← store (.orderedWithin (.taskDue userId) start.timestamp stop.timestamp)
    return (← getMany ids).filter fun t => !t.isClosed

/-- The text of a value that can be stored as one. -/
def storedText : Value → Except Failure String
  | .str s => .ok s
  | .int n => .ok (toString n)
  | .float x => .ok (Decimal.write x)
  | v => .error (.notStorable (kindName v))

/-- Records that a task depends on another. -/
def createDependency (taskId dependsOn : Value) : Program String :=
  (operation "create_dependency").guard (some taskId) do
    let id ← newId "dep"
    let task ← ofExcept (storedText taskId)
    let other ← ofExcept (storedText dependsOn)
    store (.tableSet (.dependency id) [("task_id", .text task),
      ("depends_on_task_id", .text other), ("created_at", .moment (← now))])
    store (.setAdd (.taskDependents other) task)
    return id

/-- The stored tasks that depend on a task, by id. -/
def dependents (taskId : String) : Program (List Task) :=
  (operation "query_dependents").guard (some (.str taskId)) do
    let ids : List String ← store (.setMembers (.taskDependents taskId))
    getMany (ids.mergeSort fun a b => decide (a ≤ b))

/-- Whom an update of related tasks concerns. -/
inductive Relation where
  | client (id : String)
  | parent (id : String)
  | nobody

namespace Relation

/-- The tasks of a client if one is given, otherwise those of a parent. -/
def of (client parent : Option String) : Relation :=
  match client.filter fun s => !s.isEmpty, parent.filter fun s => !s.isEmpty with
  | some c, _ => .client c
  | none, some p => .parent p
  | none, none => .nobody

/-- The key of the related tasks. -/
def key? : Relation → Option Key
  | .client id => some (.taskClient id)
  | .parent id => some (.taskParent id)
  | .nobody => none

end Relation

/-- Sets one field of all related tasks but one, by id, and gives the ids of those changed. -/
def updateRelated (field : String) (value : Value) (except : String) (r : Relation) :
    Program (List String) :=
  (operation "bulk_update_by_client_or_parent").guard none do
    match r.key? with
    | none => return []
    | some key =>
      let ids : List String ← store (.setMembers key)
      let others := (ids.mergeSort fun a b => decide (a ≤ b)).filter (· != except)
      each (fun id => do let _ ← update id [(field, value)]; return id) others

/-- Records that a user is assigned to a task. -/
def createAssignment (taskId : String) (userId : Value) (assignedBy : String) : Program String :=
  (operation "create_assignment").guard (some (.str taskId)) do
    let id ← newId "assign"
    let user ← ofExcept (storedText userId)
    store (.tableSet (.assignment id) [("task_id", .text taskId), ("user_id", .text user),
      ("assigned_by", .text assignedBy), ("created_at", .moment (← now))])
    return id

/-- The cells of an assignment, if it is there. -/
def getAssignment (id : String) : Program (Option (List (String × Cell))) :=
  (operation "get_assignment").guard (some (.str id)) do
    let cells : List (String × Cell) ← store (.tableAll (.assignment id))
    return if cells.isEmpty then none else some cells

/-- The tasks of a user, the newest first. -/
def recent (userId : String) (limit : Int) : Program (List Task) :=
  (operation "list_recent_tasks").guard (some (.str userId)) do
    let ids : List String ← store (.orderedLast (.taskUser userId) (limit - 1))
    getMany ids

end TaskAutomation.Tasks
