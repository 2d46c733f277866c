import TaskAutomation.Calendar.Moment

/-!
# Traces

* `Trace.State` : the id of the trace that is going on, empty outside one, and the id that log lines
  are stamped with;
* `Trace.enter id s` and `Trace.leave previous s` : a trace around some work; leaving it brings back
  the id from before it, or takes the stamp away where there was none;
* `Trace.Supply` : where traces that are given no id take one from; `Supply.counted` is a counter;
* `Trace.Work` : work in traces, which may fail at any place; `Work.run` leads to a `Trail`, with a
  `Visit` for each trace. A trace is left as well where the work in it fails, and the failure goes on;
* `Work.nested` : traces one inside another; `Trace.seen` : the ids that are seen on the way into them
  and out of them.
-/

namespace TaskAutomation.Trace

/-- The id of the trace going on, and the id that log lines are stamped with. -/
structure State where
  current : String := ""
  stamp : Option String := none
  deriving DecidableEq, Repr

/-- The trace going on, also as a stamp. -/
def State.set (_ : State) (id : String) : State := ⟨id, some id⟩

/-- No trace and no stamp. -/
def State.clear (_ : State) : State := ⟨"", none⟩

/-- The state inside a new trace. -/
def enter (id : String) (s : State) : State := s.set id

/-- The state after a trace, given the id from before it. -/
def leave (previous : String) (s : State) : State :=
  if previous.isEmpty then s.clear else s.set previous

/-! ## Ids -/

/-- Ids for the traces that are given none, by number. -/
structure Supply where
  id : Nat → String
  id_ne_empty : ∀ n, id n ≠ ""

/-- The id that a new trace gets where none is given, from a counter. -/
def generated (n : Nat) : String := Moment.digits 16 n

theorem generated_ne_empty (n : Nat) : generated n ≠ "" := by
  intro h
  have hlength : (generated n).length = 16 - (toString n).length + (toString n).length := by
    rw [generated, Moment.digits, Decimal.zeroFill, String.length_append, String.length_ofList,
      List.length_replicate]
  rw [h, String.length_empty] at hlength
  omega

/-- Ids in the order of a counter. -/
def Supply.counted : Supply := ⟨generated, generated_ne_empty⟩

/-- The id of a trace, from the supply if the one given is empty or there is none, and how many have
been taken from the supply. -/
def Supply.name (fresh : Supply) (taken : Nat) (given : Option String) : String × Nat :=
  match given.filter fun id => !id.isEmpty with
  | some id => (id, taken)
  | none => (fresh.id (taken + 1), taken + 1)

/-! ## Work in traces -/

/-- Work in traces, which is cut short where it fails. -/
inductive Work (ε : Type) where
  /-- Nothing. -/
  | done
  /-- A failure. -/
  | fail (cause : ε)
  /-- A look at the ids. -/
  | look
  /-- One after another. -/
  | andThen (w next : Work ε)
  /-- A trace around some work, by the id that it is given. -/
  | traced (given : Option String) (w : Work ε)
  /-- Work whose failure is caught. -/
  | guarded (w : Work ε) (handler : ε → Work ε)

/-- A trace from before it is entered until after it is left. -/
structure Visit where
  /-- Just before it is entered. -/
  before : State
  /-- Just after it is entered. -/
  inside : State
  /-- At each look from within it. -/
  looks : List State
  /-- Just before it is left. -/
  last : State
  /-- Just after it is left. -/
  after : State
  deriving DecidableEq, Repr

/-- What becomes of work: how it ends, the state at its end, the number of ids taken from the supply,
the state at each look, and the traces in the order in which they are entered. -/
structure Trail (ε : Type) where
  outcome : Except ε Unit
  state : State
  taken : Nat
  looks : List State := []
  visits : List Visit := []

namespace Trail

variable {ε : Type}

/-- A trail, and what follows it. -/
def append (r next : Trail ε) : Trail ε :=
  { next with looks := r.looks ++ next.looks, visits := r.visits ++ next.visits }

/-- Work goes on from where it ended, unless it failed. -/
def andThen (r : Trail ε) (next : Nat → State → Trail ε) : Trail ε :=
  match r.outcome with
  | .ok () => r.append (next r.taken r.state)
  | .error _ => r

/-- Where work failed, it goes on with what handles the failure. -/
def rescue (r : Trail ε) (handler : ε → Nat → State → Trail ε) : Trail ε :=
  match r.outcome with
  | .ok () => r
  | .error cause => r.append (handler cause r.taken r.state)

/-- The trace around some work is left, however the work ended. -/
def within (r : Trail ε) (before inside : State) : Trail ε :=
  let after := leave before.current r.state
  { r with state := after, visits := ⟨before, inside, r.looks, r.state, after⟩ :: r.visits }

end Trail

namespace Work

variable {ε : Type}

/-- What becomes of work. -/
def run (fresh : Supply) : Work ε → Nat → State → Trail ε
  | .done, n, s => ⟨.ok (), s, n, [], []⟩
  | .fail cause, n, s => ⟨.error cause, s, n, [], []⟩
  | .look, n, s => ⟨.ok (), s, n, [s], []⟩
  | .andThen w next, n, s => (w.run fresh n s).andThen (next.run fresh)
  | .traced given w, n, s =>
    let (id, taken) := fresh.name n given
    (w.run fresh taken (enter id s)).within s (enter id s)
  | .guarded w handler, n, s => (w.run fresh n s).rescue fun cause => (handler cause).run fresh

/-- Work in traces one inside another, with a look just inside each and one just before it is left. -/
def nested (w : Work ε) : List (Option String) → Work ε
  | [] => w
  | given :: rest => .traced given (.andThen .look (.andThen (w.nested rest) .look))

end Work

/-- The ids seen before, inside and after nested traces. -/
def seen (ids : List (Option String)) : List String :=
  let w : Work Empty := .andThen .look (.andThen (Work.nested .done ids) .look)
  (w.run .counted 0 {}).looks.map State.current

end TaskAutomation.Trace
