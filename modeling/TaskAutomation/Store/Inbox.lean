import TaskAutomation.Notice
import TaskAutomation.Program
import TaskAutomation.Settings
import TaskAutomation.Value.Text

/-!
# Inboxes

* `Inbox.allows` : counts a notification for a user in the current minute, and whether the user is
  still within the limit;
* `Inbox.notify` : a notification in front of a user's inbox, unless the user is over the limit;
* `Inbox.list` : the notifications of a user, the newest first.
-/

namespace TaskAutomation.Inbox

open Check Program

/-- An operation of the notification service. -/
def operation (name : String) : Operation := ⟨"notifications", name⟩

/-- The minute of a moment, in twelve digits. -/
def minute (m : Moment) : String :=
  let d := m.date
  let minutes := (m.timeOfDay / (60 * Moment.second)).toNat
  Moment.digits 4 d.year ++ Moment.digits 2 d.month ++ Moment.digits 2 d.day
    ++ Moment.digits 2 (minutes / 60) ++ Moment.digits 2 (minutes % 60)

/-- Counts a notification for a user in the current minute, and tells whether there are not too
many; the count of a minute is kept for two. -/
def allows (userId : String) (limit : Int) : Program Bool := do
  let key := Key.notifyRate userId (minute (← now))
  let n : Int ← store (.increment key)
  if n = 1 then store (.expire key 120)
  return decide (n ≤ limit)

/-- The fields of a new notification. -/
def notificationFields (id : String) (userId title message : Value) (taskId : Option String)
    (url : Value) : Fields :=
  [("notification_id", .str id), ("user_id", userId), ("title", title), ("message", message),
    ("related_task_id", .ofText? taskId), ("action_url", url)]

/-- Puts a notification in front of a user's inbox, unless the user is over the limit. -/
def notify (s : Settings) (userId title message : Value) (taskId : Option String) (url : Value) :
    Program Bool :=
  (operation "notify").guard (some userId) do
    if ← allows userId.text s.notificationsPerMinute then
      let id := "notify_" ++ Moment.digits 12 (← fresh .notification)
      let n ← ofChecked "Notification" (Notification.check (← setting)
        (.obj (notificationFields id userId title message taskId url)))
      let key := Key.inbox userId.text
      store (.push key (.ofDocument n.fields))
      store (.trim key (s.inboxSize - 1))
      count (.notification true)
      return true
    else
      count (.notification false)
      return false

/-- The notification in a cell. -/
def notificationOf (cell : Cell) : Program Notification := do
  ofChecked "Notification" (Notification.check (← setting) (cell.document?.getD .null))

/-- The notifications of a user, the newest first. -/
def list (userId : String) (limit : Int) : Program (List Notification) :=
  (operation "list_inbox").guard (some (.str userId)) do
    let cells : List Cell ← store (.range (.inbox userId) (limit - 1))
    each notificationOf cells

end TaskAutomation.Inbox
