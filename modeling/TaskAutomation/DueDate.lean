import TaskAutomation.Calendar.Iso
import TaskAutomation.Value.Basic

/-!
# Due dates

* `Directive` : a number of days, weeks or months ahead, written `+3 days`;
* `DueDate.ofText reference s` : the moment in UTC that a directive or an ISO date stands for, if it
  lies in the years 1 to 9999; a directive counts from the reference;
* `DueDate.resolve reference v` : the same for a value; what is no text has no due date;
* `DueDate.Spec.resolve` : the same for a value, a date or a moment.
-/

namespace TaskAutomation

/-- The units that directives count in. -/
inductive DateUnit where
  | days
  | weeks
  | months
  deriving DecidableEq, Repr

/-- A distance ahead of a reference. -/
structure Directive where
  amount : Nat
  unit : DateUnit
  deriving DecidableEq, Repr

namespace Directive

/-- The letter of a unit's name that a character stands for, in any case; a long s and the sign for
kelvin count as the letters they look like. -/
def foldLetter (c : Char) : Char :=
  if c.toNat == 0x17f then 's' else if c.toNat == 0x212a then 'k' else c.toLower

/-- The unit that a word names; no word at all means days. -/
def unitOf? (cs : List Char) : Option DateUnit :=
  let word := String.ofList (cs.map foldLetter)
  if word == "" || word == "day" || word == "days" then some .days
  else if word == "week" || word == "weeks" then some .weeks
  else if word == "month" || word == "months" then some .months
  else none

/-- A directive: a plus, digits of any script, no more than an integer may have, and a unit, with
blanks between them. -/
def read? (s : List Char) : Option Directive :=
  match s with
  | '+' :: rest =>
    let rest := rest.dropWhile Text.isBlank
    let ds := rest.takeWhile fun c => (Text.digitValue? c).isSome
    let word := (rest.drop ds.length).dropWhile Text.isBlank
    if ds.isEmpty || Decimal.maxDigits < ds.length then none
    else (unitOf? word).map fun u => ⟨Decimal.ofDigits (ds.filterMap Text.digitValue?), u⟩
  | _ => none

/-- The moment that lies a directive ahead of a moment in UTC. -/
def after? (d : Directive) (base : Moment) : Option Moment :=
  match d.unit with
  | .days => base.add? (d.amount * Moment.day)
  | .weeks => base.add? (7 * d.amount * Moment.day)
  | .months =>
    let date := base.date.addMonths d.amount
    if date.isValid then some (.ofDate date base.timeOfDay base.offset) else none

end Directive

namespace DueDate

/-- The moment in UTC that a text stands for. -/
def ofText (reference : Moment) (s : String) : Option Moment :=
  let cs := Text.trimList Text.isBlank s.toList
  match Directive.read? cs with
  | some d => reference.toUtc?.bind d.after?
  | none => (Iso.read? (String.ofList cs)).bind Moment.toUtc?

/-- The moment in UTC that a value stands for. -/
def resolve (reference : Moment) (v : Value) : Option Moment :=
  match v with
  | .str s => if s.isEmpty then none else ofText reference s
  | _ => none

/-- What a due date can be given as. -/
inductive Spec where
  | value (v : Value)
  | date (d : Date)
  | moment (m : Moment)

/-- A moment that cannot be shown on the clock of UTC. -/
structure OutOfRange where
  deriving DecidableEq, Repr

/-- The moment in UTC that a specification stands for; a given moment may lie out of range. -/
def Spec.resolve (reference : Moment) : Spec → Except OutOfRange (Option Moment)
  | .value v => .ok (DueDate.resolve reference v)
  | .date d => .ok (some (.midnight d))
  | .moment m => match m.toUtc? with
    | some t => .ok (some t)
    | none => .error {}

end DueDate

end TaskAutomation
