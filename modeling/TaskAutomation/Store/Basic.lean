import TaskAutomation.Store.Content
import TaskAutomation.Store.Key

/-!
# The store

* `Store` : contents under keys, each for ever or up to an instant;
* `Store.find? now k` : what is kept under a key at an instant;
* `Store.put`, `Store.keep` and `Store.erase` : the writes that all commands are made of.

A slot is gone once the clock is past its end; emptied contents are gone at once.
-/

namespace TaskAutomation

/-- Contents and the last instant of their life. -/
structure Slot where
  content : Content
  ends : Option Int

namespace Slot

/-- The slot is still there at an instant. -/
def isAlive (now : Int) (s : Slot) : Bool :=
  match s.ends with
  | none => true
  | some t => decide (now ≤ t)

end Slot

/-- Slots under keys, each key at most once. -/
structure Store where
  slots : List (Key × Slot) := []

namespace Store

/-- The slot under a key at an instant. -/
def slot? (s : Store) (now : Int) (k : Key) : Option Slot :=
  (s.slots.lookup k).filter (Slot.isAlive now)

/-- The contents under a key at an instant. -/
def find? (s : Store) (now : Int) (k : Key) : Option Content := (s.slot? now k).map Slot.content

/-- The store without a key. -/
def erase (s : Store) (k : Key) : Store := ⟨s.slots.filter (·.1 != k)⟩

/-- The store with a slot under a key. -/
def put (s : Store) (k : Key) (slot : Slot) : Store :=
  ⟨s.slots.filter (·.1 != k) ++ [(k, slot)]⟩

/-- New contents under a key, whose life does not change; emptied contents go. -/
def keep (s : Store) (now : Int) (k : Key) (c : Content) : Store :=
  if c.isEmpty then s.erase k else s.put k ⟨c, (s.slot? now k).bind Slot.ends⟩

/-! ## Reading by kind -/

/-- The cell under a key. -/
def cell? (s : Store) (now : Int) (k : Key) : Option Cell :=
  match s.find? now k with
  | some (.cell c) => some c
  | _ => none

/-- The table under a key, empty if there is none. -/
def table (s : Store) (now : Int) (k : Key) : List (String × Cell) :=
  match s.find? now k with
  | some (.table cells) => cells
  | _ => []

/-- The set under a key, empty if there is none. -/
def members (s : Store) (now : Int) (k : Key) : List String :=
  match s.find? now k with
  | some (.set members) => members
  | _ => []

/-- The ordered set under a key, empty if there is none. -/
def ordered (s : Store) (now : Int) (k : Key) : List Scored :=
  match s.find? now k with
  | some (.ordered members) => members
  | _ => []

/-- The list under a key, empty if there is none. -/
def list (s : Store) (now : Int) (k : Key) : List Cell :=
  match s.find? now k with
  | some (.list cells) => cells
  | _ => []

end Store

end TaskAutomation
