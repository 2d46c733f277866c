import TaskAutomation.Check.Leaf

/-!
# Notices

* `Notification` : a message in a user's inbox;
* `Activity` : an entry of a task's timeline.
-/

namespace TaskAutomation

open Check

/-- A message in a user's inbox. -/
structure Notification where
  id : String
  userId : String
  title : String
  message : String
  type : String
  relatedTaskId : Option String
  actionUrl : Option String
  read : Bool
  createdAt : Moment

namespace Notification

/-- A notification read from the fields of an object. -/
def ofFields (s : Setting) (f : Fields) : Checked Notification :=
  Notification.mk
    <$> required s f "notification_id" text
    <*> required s f "user_id" text
    <*> required s f "title" text
    <*> required s f "message" text
    <*> optional s f "type" "automation" text
    <*> optional? s f "related_task_id" text
    <*> optional? s f "action_url" text
    <*> optional s f "read" false boolean
    <*> optional s f "created_at" s.now moment

/-- A notification read from a value. -/
def check : Checker Notification := fun s v => (record "Notification" s v).andThen (ofFields s)

/-- The notification as an object. -/
def fields (n : Notification) : Fields :=
  [("notification_id", .str n.id), ("user_id", .str n.userId), ("title", .str n.title),
    ("message", .str n.message), ("type", .str n.type),
    ("related_task_id", .ofText? n.relatedTaskId), ("action_url", .ofText? n.actionUrl),
    ("read", .bool n.read), ("created_at", .str n.createdAt.stamp)]

/-- The notification as an object. -/
def value (n : Notification) : Value := .obj n.fields

end Notification

/-- An entry of a task's timeline. -/
structure Activity where
  id : String
  taskId : String
  userId : String
  type : String
  description : String
  metadata : Fields
  createdAt : Moment

namespace Activity

/-- An entry read from the fields of an object. -/
def ofFields (s : Setting) (f : Fields) : Checked Activity :=
  Activity.mk
    <$> required s f "activity_id" text
    <*> required s f "task_id" text
    <*> required s f "user_id" text
    <*> required s f "activity_type" text
    <*> optional s f "description" "" text
    <*> optional s f "metadata" [] object
    <*> optional s f "created_at" s.now moment

/-- An entry read from a value. -/
def check : Checker Activity := fun s v => (record "ActivityEntry" s v).andThen (ofFields s)

/-- The entry as an object. -/
def fields (a : Activity) : Fields :=
  [("activity_id", .str a.id), ("task_id", .str a.taskId), ("user_id", .str a.userId),
    ("activity_type", .str a.type), ("description", .str a.description),
    ("metadata", .obj (Value.storableFields a.metadata)), ("created_at", .str a.createdAt.stamp)]

/-- The entry as an object. -/
def value (a : Activity) : Value := .obj a.fields

end Activity

end TaskAutomation
