import TaskAutomation.Engine.Scan
import TaskAutomation.Message

/-!
# Deliveries

* `Delivery.handle` : the trigger of an event that is delivered for the first time; a repetition
  within the time that events are remembered does nothing;
* `Delivery.consume` : the event that a message carries; a message without one is dropped, and a
  failure while an event is handled is part of the result.
-/

namespace TaskAutomation.Delivery

open Program

/-- Runs the rules on an event, unless the event was delivered before. -/
def handle (e : Engine) (event : Event) : Program (Option TriggerOutcome) := do
  if ← Claims.mark e.settings event.id then return some (← Scan.handle e event.occurrence)
  else return none

/-- What became of a message. -/
structure Receipt where
  eventId : String
  result : Except Failure (Option TriggerOutcome)

/-- Handles the event that a message carries, if it carries one. -/
def consume (handler : Event → Program (Option TriggerOutcome)) (body : ByteArray)
    (messageId : Option String) : Program (Option Receipt) := do
  match ← ofExcept (Message.event? (← now) body messageId) with
  | none => return none
  | some event => return some ⟨event.id, ← attempt (handler event)⟩

end TaskAutomation.Delivery
