import TaskAutomation.Check.Basic
import TaskAutomation.Decimal.Numeral

/-!
# Checking texts, numbers and moments

* `text`, `textWithin` : texts, of a bounded number of characters;
* `integer`, `number`, `boolean` : numbers and booleans, also written as texts;
* `bounded` : numbers within bounds;
* `choice`, `literal` : one of some words;
* `moment` : dates and times.
-/

namespace TaskAutomation.Check

open Decimal

/-- A text. -/
def text : Checker String := fun _ v =>
  match v with
  | .str s => .ok s
  | v => .fault .notText v

/-- A text of at least, and at most, so many characters. -/
def textWithin (least : Nat) (most : Option Nat) : Checker String := fun s v =>
  (text s v).andThen fun t =>
    if t.length < least then .fault (.shortText least) v
    else match most with
      | some n => if n < t.length then .fault (.longText n) v else .ok t
      | none => .ok t

/-! ## Integers -/

/-- A text without its underscores; they stand neither at an end nor side by side. -/
def withoutUnderscores? (cs : List Char) : Option (List Char) :=
  let doubled := (cs.zip (cs.drop 1)).any fun (a, b) => a == '_' && b == '_'
  if cs.head? == some '_' || cs.getLast? == some '_' || doubled then none
  else some (cs.filter (· != '_'))

/-- What follows the zeros, and the underscores between them, at the front of a whole number: its
other digits, a minus before them, or a point, which keeps the character before it. Where nothing
follows, the last of them stays. -/
def afterZeros? (last : Char) : List Char → Option (List Char)
  | [] => some [last]
  | c :: rest =>
    if c == '0' || c == '_' then afterZeros? c rest
    else if c == '.' then some (last :: c :: rest)
    else if c == '-' || c.isDigit then some (c :: rest)
    else none

/-- A whole number without zeros at its front. -/
def withoutZeros? : List Char → Option (List Char)
  | '0' :: rest => afterZeros? '0' rest
  | c :: rest => if c.isDigit then some (c :: rest) else none
  | [] => none

/-- A number without a point that zeros follow, one at least, and nothing else. -/
def withoutPoint (cs : List Char) : List Char :=
  let places := (cs.dropWhile (· != '.')).drop 1
  if !places.isEmpty && places.all (· == '0') then cs.takeWhile (· != '.') else cs

/-- A text that writes an integer without blanks, plus, zeros at the front, point and underscores;
the minus it begins with is taken off first and put back last. -/
def plainNumeral? (s : String) : Option (List Char) := do
  let (negative, cs) := signAt (Text.trimList Text.isSpace s.toList)
  let cs ← withoutUnderscores? (withoutPoint (← withoutZeros? cs))
  return if negative then '-' :: cs else cs

/-- The integer of a plain numeral: a minus or none, and digits that begin with no zero unless it is
the only one. The length of a numeral is bounded, its minus counted. -/
def integerOfNumeral (cs : List Char) (v : Value) : Checked Int :=
  let (negative, ds) := signAt cs
  let run := ds.takeWhile Char.isDigit
  if run.isEmpty || (run.head? == some '0' && 1 < run.length) then .fault .integerText v
  else if maxDigits < run.length + (if negative then 1 else 0) then .fault .integerSize v
  else if run.length < ds.length then .fault .integerText v
  else .ok (signed negative (ofDigits (run.filterMap Text.asciiDigit?)))

/-- The integer that a text writes. -/
def integerOfText (s : String) (v : Value) : Checked Int :=
  match plainNumeral? s with
  | some cs => integerOfNumeral cs v
  | none => .fault .integerText v

/-- The number is an integer beyond neither end of a word of 64 bits, nor its lowest. -/
def isWithinWord (n : Int) : Bool := -9223372036854775808 < n && n < 9223372036854775808

/-- An integer: also a boolean, a number without a fraction, or a text that writes one. -/
def integer : Checker Int := fun _ v =>
  match v with
  | .int n => .ok n
  | .bool b => .ok (if b then 1 else 0)
  | .str s => integerOfText s v
  | .float x =>
    if !isFinite x then .fault .notFinite v
    else match toInt? x with
      | some n =>
        if isWithinWord n then .ok n else .fault .integerSize v
      | none => .fault .integerFraction v
  | v => .fault .notInteger v

/-! ## Numbers -/

/-- The number that a text writes: blanks around it are dropped, or else underscores between other
characters, but not both. -/
def numberOfText? (s : String) : Option Float := do
  let cs := s.toList
  let cs ← if cs.contains '_' then withoutUnderscores? cs else some (Text.trimList Text.isSpace cs)
  bareNumber? Text.asciiDigit? cs

/-- A number: also a boolean, or a text that writes one. -/
def number : Checker Float := fun _ v =>
  match v with
  | .float x => .ok x
  | .int n => match ofInt? n with
    | some x => .ok x
    | none => .fault .notNumber v
  | .bool b => .ok (if b then 1.0 else 0.0)
  | .str s => match numberOfText? s with
    | some x => .ok x
    | none => .fault .numberText v
  | v => .fault .notNumber v

/-! ## Bounds -/

/-- Bounds of a number; the first one that it breaks counts, the upper one being asked first. -/
structure Bounds where
  most : Option Int := none
  least : Option Int := none
  beyond : Option Int := none

/-- The order of two numbers is one of those allowed; no number has no order. -/
def ordered (allowed : List Ordering) (x y : Binary) : Bool :=
  match x.cmp? y with
  | some o => allowed.contains o
  | none => false

/-- The bound that a number breaks. -/
def Bounds.broken? (b : Bounds) (x : Binary) : Option Cause :=
  let most := b.most.bind fun n =>
    if ordered [.lt, .eq] x (.ofInt n) then none else some (Cause.above n)
  let least := b.least.bind fun n =>
    if ordered [.gt, .eq] x (.ofInt n) then none else some (Cause.below n)
  let beyond := b.beyond.bind fun n =>
    if ordered [.gt] x (.ofInt n) then none else some (Cause.notAbove n)
  most.or (least.or beyond)

/-- An integer within bounds. -/
def boundedInteger (b : Bounds) : Checker Int := fun s v =>
  (integer s v).andThen fun n =>
    match b.broken? (.ofInt n) with
    | some cause => .fault cause v
    | none => .ok n

/-- A number within bounds. -/
def boundedNumber (b : Bounds) : Checker Float := fun s v =>
  (number s v).andThen fun x =>
    match b.broken? (.ofFloat x) with
    | some cause => .fault cause v
    | none => .ok x

/-! ## Booleans and words -/

/-- The texts for false and for true, in lower case. -/
def falseWords : List String := ["0", "off", "f", "false", "n", "no"]

/-- The texts for true, in lower case. -/
def trueWords : List String := ["1", "on", "t", "true", "y", "yes"]

/-- The boolean of an integer: 0 or 1. -/
def booleanOfInteger (n : Int) (v : Value) : Checked Bool :=
  if n = 0 then .ok false else if n = 1 then .ok true else .fault .booleanText v

/-- A boolean: also 0 and 1, or one of some words in any case. Numbers beyond 64 bits are not even
tried. -/
def boolean : Checker Bool := fun _ v =>
  match v with
  | .bool b => .ok b
  | .int n =>
    if isWithinWord n || n = -9223372036854775808 then booleanOfInteger n v
    else .fault .notBoolean v
  | .float x =>
    match (toInt? x).filter isWithinWord with
    | some n => booleanOfInteger n v
    | none => .fault .notBoolean v
  | .str s =>
    let word := String.ofList (s.toList.map Char.toLower)
    if falseWords.contains word then .ok false
    else if trueWords.contains word then .ok true
    else .fault .booleanText v
  | v => .fault .notBoolean v

/-- One of a closed set of words. -/
def choice {α : Type} (ofName? : String → Option α) (choices : List String) : Checker α := fun _ v =>
  match v with
  | .str s => match ofName? s with
    | some a => .ok a
    | none => .fault (.notMember choices) v
  | v => .fault (.notMember choices) v

/-- One of some words, kept as a text. -/
def literal (choices : List String) : Checker String := fun _ v =>
  match v with
  | .str s => if choices.contains s then .ok s else .fault (.notLiteral choices) v
  | v => .fault (.notLiteral choices) v

/-! ## Moments -/

/-- A moment read from a text, if there is one. A text that could be read but whose moment does not
exist is no bad date, only a bad moment. -/
def momentOfText (s : String) (v : Value) : Checked Moment :=
  match Stamp.ofText s with
  | .ok m => .ok m
  | .error .yearZero => .fault (.badMoment .yearZero) v
  | .error fault => .fault (.badDate fault) v

/-- A moment read from a number, if there is one. -/
def momentOfNumber (found : Except Stamp.Fault Moment) (v : Value) : Checked Moment :=
  match found with
  | .ok m => .ok m
  | .error fault => .fault (.badMoment fault) v

/-- A date and time. -/
def moment : Checker Moment := fun _ v =>
  match v with
  | .str s => momentOfText s v
  | .int n => if (ofInt? n).isNone then .fault .notMoment v else momentOfNumber (Stamp.ofInt n) v
  | .float x => momentOfNumber (Stamp.ofFloat x) v
  | v => .fault .notMoment v

/-- A date and time, in UTC where it does not say otherwise. -/
def momentInUtc : Checker Moment := fun s v => (moment s v).map Moment.inUtc

end TaskAutomation.Check
