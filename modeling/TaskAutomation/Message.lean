import TaskAutomation.Event
import TaskAutomation.Failure
import TaskAutomation.Value.Reader

/-!
# Messages

* `Message.event? now body id` : the event that the bytes of a message carry, if they are the JSON
  text of one; the id of the message stands for an id that the event lacks;
* a message fails as a whole only where its text is JSON that cannot be read.
-/

namespace TaskAutomation.Message

open Check

/-- The fields of an event with the id of its message where it has none of its own. -/
def withId (f : Fields) (id : Option String) : Fields :=
  let hasOwn := ((f.get? "event_id").map Value.truthy).getD false
  match id with
  | some id => if hasOwn || id.isEmpty then f else Fields.put f "event_id" (.str id)
  | none => f

/-- The event that an object stands for. -/
def ofFields? (now : Moment) (f : Fields) (id : Option String) : Option Event :=
  if f.has "event_type" then (Event.check { now } (.obj (withId f id))).toOption else none

/-- The event that a text carries. -/
def ofText? (now : Moment) (text : String) (id : Option String) :
    Except Failure (Option Event) :=
  match Json.read text with
  | .ok (.obj f) => .ok (ofFields? now f id)
  | .ok _ => .ok none
  | .error (.invalid _) => .ok none
  | .error (.digits n) => .error (.badNumeral n)
  | .error .depth => .error .tooDeep

/-- The event that the bytes of a message carry. -/
def event? (now : Moment) (body : ByteArray) (id : Option String) :
    Except Failure (Option Event) :=
  match String.fromUTF8? body with
  | some text => ofText? now text id
  | none => .ok none

end TaskAutomation.Message
