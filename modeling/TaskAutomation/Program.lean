import TaskAutomation.Failure
import TaskAutomation.Metric
import TaskAutomation.Rule
import TaskAutomation.Store.Command

/-!
# Programs

* `Operation` : an operation of a part of the service, by name; `Subject` : what it is entered for;
* `Call` : what a program asks of the world around it: a command of the store, the clock, a number
  for a new id, leave to enter an operation, or a count;
* `Program α` : calls one after another, ending in a result or a failure; programs form a monad;
* `Program.attempt` : a program that gives the failure of another as its result;
* `Operation.guard` : an operation whose part may be out of reach.

A program is a tree with one node for each call, so that the calls of several programs can be
interleaved in any order.
-/

namespace TaskAutomation

/-- An operation of a part of the service. -/
structure Operation where
  part : String
  name : String
  deriving DecidableEq, Repr

/-- What new ids are numbered by. -/
inductive Counter where
  | task
  | execution
  | notification
  | activity
  | rule
  deriving DecidableEq, Repr

/-- What an operation is entered for: a rule on a trigger, or a record. The world does not look at it;
it is there for those who watch the calls of a program. -/
inductive Subject where
  | nothing
  | run (rule : Rule) (x : Occurrence)
  | record (run : Execution)

/-- What a program asks of the world. -/
inductive Call where
  /-- A command of the store. -/
  | store (c : Command)
  /-- The moment on the clock, in UTC. -/
  | now
  /-- The next number of a counter. -/
  | fresh (c : Counter)
  /-- Leave to enter an operation, given its first argument where that is data, and its subject. -/
  | enter (o : Operation) (argument : Option Value) (subject : Subject)
  /-- One more of a metric. -/
  | count (m : Metric)

namespace Call

/-- What the world answers; an operation that is out of reach answers with the reason. -/
@[reducible] def Reply : Call → Type
  | .store c => c.Reply
  | .now => Moment
  | .fresh _ => Nat
  | .enter .. => Option String
  | .count _ => Unit

end Call

/-- Calls one after another, ending in a result or a failure. -/
inductive Program (α : Type) where
  | done (a : α)
  | fail (f : Failure)
  | ask (c : Call) (next : c.Reply → Program α)

namespace Program

variable {α β : Type}

/-- One program after another. -/
def bind : Program α → (α → Program β) → Program β
  | .done a, g => g a
  | .fail f, _ => .fail f
  | .ask c next, g => .ask c fun r => bind (next r) g

instance : Monad Program where
  pure := .done
  bind := bind

/-- A program whose failure is part of its result. -/
def attempt : Program α → Program (Except Failure α)
  | .done a => .done (.ok a)
  | .fail f => .done (.error f)
  | .ask c next => .ask c fun r => attempt (next r)

/-- A result or a failure without calls. -/
def ofExcept : Except Failure α → Program α
  | .ok a => .done a
  | .error f => .fail f

/-- The result of a check of a record. -/
def ofChecked (name : String) (c : Check.Checked α) : Program α :=
  ofExcept (Failure.ofChecked name c)

/-- One call. -/
def call (c : Call) : Program c.Reply := .ask c .done

/-- One command of the store. -/
def store (c : Command) : Program c.Reply := .ask (.store c) .done

/-- The moment on the clock, in UTC. -/
def now : Program Moment := call .now

/-- The next number of a counter. -/
def fresh (c : Counter) : Program Nat := call (.fresh c)

/-- One more of a metric. -/
def count (m : Metric) : Program Unit := call (.count m)

/-- The setting of a check at this moment. -/
def setting : Program Check.Setting := do return { now := ← now }

/-- A program for each item in order. -/
def each (f : α → Program β) : List α → Program (List β)
  | [] => .done []
  | a :: rest => do
    let b ← f a
    let bs ← each f rest
    return b :: bs

end Program

namespace Operation

variable {α : Type}

/-- An operation that fails where its part is out of reach. -/
def guarded (o : Operation) (argument : Option Value) (subject : Subject) (body : Program α) :
    Program α := do
  match ← Program.call (.enter o argument subject) with
  | some message => .fail (.unreachable message)
  | none => body

/-- An operation on data, or on nothing that is told. -/
def guard (o : Operation) (argument : Option Value) (body : Program α) : Program α :=
  o.guarded argument .nothing body

/-- An operation on a subject that is no data. -/
def guardFor (o : Operation) (subject : Subject) (body : Program α) : Program α :=
  o.guarded none subject body

end Operation

end TaskAutomation
