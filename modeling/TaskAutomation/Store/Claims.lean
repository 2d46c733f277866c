import TaskAutomation.Program
import TaskAutomation.Settings

/-!
# Claims

* `Claims.claim` : takes a key for one run, for a limited time; only the first to ask gets it;
* `Claims.mark` : marks an event as processed, for a limited time; only the first to ask does so;
* `Claims.isMarked` : whether an event is marked.
-/

namespace TaskAutomation.Claims

open Program

/-- Takes a key for one run. -/
def claim (s : Settings) (key : String) : Program Bool :=
  (Operation.mk "guard" "claim").guard (some (.str key)) do
    store (.claim (.executionDedup key) (.text "1") s.scanDedupTtl)

/-- Whether an event is marked as processed. -/
def isMarked (eventId : String) : Program Bool :=
  (Operation.mk "idempotency" "is_processed").guard (some (.str eventId)) do
    store (.has (.processed eventId))

/-- Marks an event as processed, and tells whether it was not so before. -/
def mark (s : Settings) (eventId : String) : Program Bool :=
  (Operation.mk "idempotency" "mark_processed").guard (some (.str eventId)) do
    let isNew : Bool ← store (.setIfFree (.processed eventId) (.text "1"))
    if isNew then store (.expire (.processed eventId) s.eventTtl)
    return isNew

end TaskAutomation.Claims
