import TaskAutomation.Store.Basic

/-!
# Commands of the store

* `Command` : the single steps that a store takes, none of which another can interrupt;
* `Command.Reply` : what each of them answers;
* `Command.run now c s` : the answer at an instant, and the store after it.
-/

namespace TaskAutomation

/-- A single step of the store. -/
inductive Command where
  /-- The cell under a key. -/
  | get (k : Key)
  /-- A cell under a key, for ever. -/
  | set (k : Key) (c : Cell)
  /-- A cell under a free key, for some seconds. -/
  | claim (k : Key) (c : Cell) (seconds : Int)
  /-- A cell under a free key, for ever. -/
  | setIfFree (k : Key) (c : Cell)
  /-- Whether there is anything under a key. -/
  | has (k : Key)
  /-- Ends what is under a key after some seconds. -/
  | expire (k : Key) (seconds : Int)
  /-- Adds one to the count under a key. -/
  | increment (k : Key)
  /-- Removes what is under a key. -/
  | delete (k : Key)
  /-- Sets cells of a table. -/
  | tableSet (k : Key) (cells : List (String × Cell))
  /-- The cells of a table. -/
  | tableAll (k : Key)
  /-- Adds one to a count in a table. -/
  | tableIncrement (k : Key) (name : String)
  /-- Adds a member to a set. -/
  | setAdd (k : Key) (member : String)
  /-- Removes a member from a set. -/
  | setRemove (k : Key) (member : String)
  /-- The members of a set. -/
  | setMembers (k : Key)
  /-- The members that two sets share. -/
  | setShared (k l : Key)
  /-- The members of any of some sets. -/
  | setUnion (ks : List Key)
  /-- Gives a member of an ordered set a score. -/
  | orderedPut (k : Key) (member : String) (score : Float)
  /-- Removes a member from an ordered set. -/
  | orderedRemove (k : Key) (member : String)
  /-- The members with scores below a bound. -/
  | orderedBelow (k : Key) (bound : Float)
  /-- The members with scores between two bounds, both included. -/
  | orderedWithin (k : Key) (low high : Float)
  /-- The members from the highest score down to an index. -/
  | orderedLast (k : Key) (last : Int)
  /-- Puts a cell in front of a list. -/
  | push (k : Key) (c : Cell)
  /-- Cuts a list after an index. -/
  | trim (k : Key) (last : Int)
  /-- The cells of a list up to an index. -/
  | range (k : Key) (last : Int)

namespace Command

/-- What a command answers. -/
@[reducible] def Reply : Command → Type
  | .get _ => Option Cell
  | .claim .. => Bool
  | .setIfFree .. => Bool
  | .has _ => Bool
  | .increment _ => Int
  | .tableAll _ => List (String × Cell)
  | .setMembers _ => List String
  | .setShared .. => List String
  | .setUnion _ => List String
  | .orderedBelow .. => List String
  | .orderedWithin .. => List String
  | .orderedLast .. => List String
  | .range .. => List Cell
  | _ => Unit

/-- The instant some seconds later. -/
def later (now seconds : Int) : Int := now + seconds * Moment.second

/-- The count in a cell, zero if there is none. -/
def countOf : Option Cell → Int
  | some (.count n) => n
  | _ => 0

/-- The answer of a command at an instant, and the store after it. -/
def run (now : Int) : (c : Command) → Store → c.Reply × Store
  | .get k, s => (s.cell? now k, s)
  | .set k c, s => ((), s.put k ⟨.cell c, none⟩)
  | .claim k c seconds, s =>
    if (s.find? now k).isSome then (false, s)
    else (true, s.put k ⟨.cell c, some (later now seconds)⟩)
  | .setIfFree k c, s =>
    if (s.find? now k).isSome then (false, s) else (true, s.put k ⟨.cell c, none⟩)
  | .has k, s => ((s.find? now k).isSome, s)
  | .expire k seconds, s =>
    match s.find? now k with
    | some c => ((), s.put k ⟨c, some (later now seconds)⟩)
    | none => ((), s)
  | .increment k, s =>
    let n := countOf (s.cell? now k) + 1
    (n, s.keep now k (.cell (.count n)))
  | .delete k, s => ((), s.erase k)
  | .tableSet k cells, s =>
    let table := cells.foldl (fun t (name, c) => Content.putCell name c t) (s.table now k)
    ((), s.keep now k (.table table))
  | .tableAll k, s => (s.table now k, s)
  | .tableIncrement k name, s =>
    let table := s.table now k
    let n := countOf (table.lookup name) + 1
    ((), s.keep now k (.table (Content.putCell name (.count n) table)))
  | .setAdd k m, s =>
    let members := s.members now k
    if members.contains m then ((), s) else ((), s.keep now k (.set (members ++ [m])))
  | .setRemove k m, s =>
    let members := s.members now k
    if members.contains m then ((), s.keep now k (.set (members.filter (· != m)))) else ((), s)
  | .setMembers k, s => (s.members now k, s)
  | .setShared k l, s => ((s.members now k).filter (s.members now l).contains, s)
  | .setUnion ks, s => ((ks.flatMap (s.members now)).eraseDups, s)
  | .orderedPut k m score, s =>
    ((), s.keep now k (.ordered (Scored.put ⟨m, score⟩ (s.ordered now k))))
  | .orderedRemove k m, s =>
    let members := s.ordered now k
    if members.any (·.member == m) then
      ((), s.keep now k (.ordered (members.filter (·.member != m))))
    else ((), s)
  | .orderedBelow k bound, s =>
    (((s.ordered now k).filter fun a => Scored.scoreBefore a.score bound).map Scored.member, s)
  | .orderedWithin k low high, s =>
    (((s.ordered now k).filter fun a =>
      Scored.atLeast low a.score && Scored.atLeast a.score high).map Scored.member, s)
  | .orderedLast k last, s =>
    (Content.through last ((s.ordered now k).reverse.map Scored.member), s)
  | .push k c, s => ((), s.keep now k (.list (c :: s.list now k)))
  | .trim k last, s =>
    match s.find? now k with
    | some (.list cells) => ((), s.keep now k (.list (Content.through last cells)))
    | _ => ((), s)
  | .range k last, s => (Content.through last (s.list now k), s)

end Command

end TaskAutomation
