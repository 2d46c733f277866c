import TaskAutomation.Calendar.Moment
import TaskAutomation.Value.Basic

/-!
# What a store holds

* `Cell` : a text, a count, a moment, or a document;
* `Content` : one cell, a table of cells, a set, a set ordered by scores, or a list of cells;
* the operations on each kind. Sets keep the order of first insertion, ordered sets are sorted by
  score and then by member, lists have their newest cell first.
-/

namespace TaskAutomation

/-- One thing that is stored. -/
inductive Cell where
  | text (s : String)
  | count (n : Int)
  | moment (m : Moment)
  | document (v : Value)

namespace Cell

/-- A document without infinities and no-numbers. -/
def ofDocument (f : Fields) : Cell := .document (.obj (Value.storableFields f))

/-- The document in a cell. -/
def document? : Cell → Option Value
  | .document v => some v
  | _ => none

end Cell

/-- A member of an ordered set with its score. -/
structure Scored where
  member : String
  score : Float

namespace Scored

/-- One score comes before another. -/
def scoreBefore (x y : Float) : Bool :=
  (Decimal.Binary.ofFloat x).cmp? (Decimal.Binary.ofFloat y) == some .lt

/-- The order of ordered sets. -/
def before (a b : Scored) : Bool :=
  scoreBefore a.score b.score || (!scoreBefore b.score a.score && decide (a.member < b.member))

/-- Puts a member at its place among sorted ones. -/
def insert (a : Scored) : List Scored → List Scored
  | [] => [a]
  | b :: rest => if a.before b then a :: b :: rest else b :: insert a rest

/-- Gives a member a score; it had at most one before. -/
def put (a : Scored) (members : List Scored) : List Scored :=
  insert a (members.filter (·.member != a.member))

/-- The score is at least another. -/
def atLeast (bound score : Float) : Bool := !scoreBefore score bound

end Scored

/-- What is kept under a key. -/
inductive Content where
  | cell (c : Cell)
  | table (cells : List (String × Cell))
  | set (members : List String)
  | ordered (members : List Scored)
  | list (cells : List Cell)

namespace Content

/-- Sets a cell of a table; a cell that is there keeps its place. -/
def putCell (name : String) (c : Cell) : List (String × Cell) → List (String × Cell)
  | [] => [(name, c)]
  | (k, old) :: rest => if k == name then (k, c) :: rest else (k, old) :: putCell name c rest

/-- There is nothing left under the key. -/
def isEmpty : Content → Bool
  | .cell _ => false
  | .table cells => cells.isEmpty
  | .set members => members.isEmpty
  | .ordered members => members.isEmpty
  | .list cells => cells.isEmpty

/-- The first items up to an index, which counts from the end if it is negative. -/
def through {α : Type} (last : Int) (items : List α) : List α :=
  if 0 ≤ last then items.take (last + 1).toNat else items.take (items.length + last + 1).toNat

end Content

end TaskAutomation
