import TaskAutomation.Program

/-!
# The world of programs

* `World` : the store, the clock, the counters of ids, the operations that are out of reach, and the
  counts of metrics;
* `World.answer` : what the world answers to a call, and the world after it;
* `Program.run` : a program in a world, to its end.
-/

namespace TaskAutomation

/-- An operation that is out of reach, for one first argument or for all. -/
structure Outage where
  operation : Operation
  argument : Option Value
  message : String

namespace Outage

/-- The outage concerns an operation with a first argument. -/
def concerns (x : Outage) (o : Operation) (argument : Option Value) : Bool :=
  x.operation == o &&
    match x.argument with
    | none => true
    | some v => (argument.map v.same).getD false

end Outage

/-- All that programs depend on and change. -/
structure World where
  store : Store := {}
  clock : Moment
  counters : List (Counter × Nat) := []
  outages : List Outage := []
  counts : List (Metric × Nat) := []

/-- Adds one to the count of a key. -/
def tally {α : Type} [BEq α] (a : α) : List (α × Nat) → List (α × Nat)
  | [] => [(a, 1)]
  | (b, n) :: rest => if b == a then (b, n + 1) :: rest else (b, n) :: tally a rest

namespace World

/-- The last number of a counter. -/
def counter (w : World) (c : Counter) : Nat := (w.counters.lookup c).getD 0

/-- The answer to a call, and the world after it. -/
def answer (w : World) : (c : Call) → c.Reply × World
  | .store c =>
    let (r, s) := c.run w.clock.instant w.store
    (r, { w with store := s })
  | .now => (w.clock, w)
  | .fresh c => (w.counter c + 1, { w with counters := tally c w.counters })
  | .enter o argument _ =>
    ((w.outages.find? fun x => x.concerns o argument).map Outage.message, w)
  | .count m => ((), { w with counts := tally m w.counts })

/-- The world with the clock some microseconds later. -/
def advance (w : World) (micros : Int) : World :=
  { w with clock := ⟨w.clock.wall + micros, w.clock.offset⟩ }

end World

/-- A program in a world, to its end. -/
def Program.run {α : Type} : Program α → World → Except Failure α × World
  | .done a, w => (.ok a, w)
  | .fail f, w => (.error f, w)
  | .ask c next, w =>
    let (r, w) := w.answer c
    run (next r) w

end TaskAutomation
