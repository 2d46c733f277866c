import TaskAutomation.Check.Issue

/-!
# Checking values

* `Checked α` : what a check finds, a result or every issue; `Checked.both` joins two checks and
  keeps the issues of both, the first ones first;
* `Setting` : the clock of a check and how it words what is no object;
* `Check α` : a check of a value; `required`, `optional` check the fields of an object, `nullable`
  lets null through, `items` checks a list item by item.
-/

namespace TaskAutomation.Check

/-- A result, or the issues that stand in its way. -/
inductive Checked (α : Type) where
  | ok (a : α)
  | issues (found : List Issue)

namespace Checked

variable {α β γ : Type}

/-- The result through a function. -/
def map (f : α → β) : Checked α → Checked β
  | .ok a => .ok (f a)
  | .issues found => .issues found

/-- Two results through a function, or the issues of both. -/
def both (f : α → β → γ) : Checked α → Checked β → Checked γ
  | .ok a, .ok b => .ok (f a b)
  | .issues found, .ok _ => .issues found
  | .ok _, .issues found => .issues found
  | .issues found, .issues more => .issues (found ++ more)

/-- A further check of a result. -/
def andThen : Checked α → (α → Checked β) → Checked β
  | .ok a, f => f a
  | .issues found, _ => .issues found

/-- The same with every issue one step further out. -/
def under (s : Step) : Checked α → Checked α
  | .ok a => .ok a
  | .issues found => .issues (found.map (Issue.under s))

/-- One issue with the value itself. -/
def fault (cause : Cause) (v : Value) : Checked α := .issues [⟨[], cause, v⟩]

/-- The result, if there is one. -/
def toOption : Checked α → Option α
  | .ok a => some a
  | .issues _ => none

instance : Functor Checked where
  map := map

instance : Applicative Checked where
  pure := .ok
  seq f x := both (fun g a => g a) f (x ())

end Checked

/-- The clock of a check, and whether what is no object is told to be unreadable rather than to be
no record. -/
structure Setting where
  now : Moment
  readable : Bool := false

/-- A check of a value. -/
abbrev Checker (α : Type) := Setting → Value → Checked α

variable {α : Type}

/-- Any value at all. -/
def any : Checker Value := fun _ v => .ok v

/-- Null, or what another check accepts. -/
def nullable (check : Checker α) : Checker (Option α) := fun s v =>
  match v with
  | .null => .ok none
  | v => (check s v).map some

/-- An object, any at all. -/
def object : Checker Fields := fun _ v =>
  match v with
  | .obj fields => .ok fields
  | v => .fault .notObject v

/-- The fields of a record of the given name. -/
def record (name : String) : Checker Fields := fun s v =>
  match v with
  | .obj fields => .ok fields
  | v => .fault (if s.readable then .notReadable else .notRecord name) v

/-- A field that has to be there. -/
def required (s : Setting) (fields : Fields) (name : String) (check : Checker α) : Checked α :=
  match fields.get? name with
  | some v => (check s v).under (.field name)
  | none => (Checked.fault .missing (.obj fields)).under (.field name)

/-- A field that may be absent. -/
def optional (s : Setting) (fields : Fields) (name : String) (absent : α) (check : Checker α) :
    Checked α :=
  match fields.get? name with
  | some v => (check s v).under (.field name)
  | none => .ok absent

/-- A field that may be absent or null. -/
def optional? (s : Setting) (fields : Fields) (name : String) (check : Checker α) :
    Checked (Option α) :=
  optional s fields name none (nullable check)

/-- The items of a list from a position on. -/
def itemsFrom (check : Checker α) (s : Setting) : Nat → List Value → Checked (List α)
  | _, [] => .ok []
  | n, v :: rest =>
    ((check s v).under (.index n)).both List.cons (itemsFrom check s (n + 1) rest)

/-- A list whose items pass a check. -/
def items (check : Checker α) : Checker (List α) := fun s v =>
  match v with
  | .list vs => itemsFrom check s 0 vs
  | v => .fault .notList v

/-- A list with at least so many items, each of which passes a check. -/
def itemsAtLeast (least : Nat) (check : Checker α) : Checker (List α) := fun s v =>
  (items check s v).andThen fun as =>
    if as.length < least then .fault (.shortList least as.length) v else .ok as

/-- The fields of an object that are not among the given names. -/
def others (names : List String) (fields : Fields) : Fields :=
  fields.filter fun (k, _) => !names.contains k

end TaskAutomation.Check
