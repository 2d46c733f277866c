import TaskAutomation.Calendar.Moment
import TaskAutomation.Decimal.Numeral

/-!
# Moments as records hold them

* `Stamp.ofText s` : a date, a date and time, or a number of seconds since 1970;
* `Stamp.ofInt n`, `Stamp.ofFloat x` : a number of seconds since 1970, or of milliseconds when it is
  beyond `20000000000` either way, to the nearest microsecond;
* `Stamp.Fault` : why a text or a number is no moment.

A text that is neither date and time nor number is judged as a date alone, so its fault is the first
departure from year, month and day.
-/

namespace TaskAutomation.Stamp

/-- Why a text or a number is no moment. -/
inductive Fault where
  | tooShort
  | yearChar
  | monthChar
  | dayChar
  | separator
  | month
  | day
  | extra
  | yearZero
  | tooEarly
  | tooLate
  | noNumber
  deriving DecidableEq, Repr

/-- The words for a fault. -/
def Fault.message : Fault → String
  | .tooShort => "input is too short"
  | .yearChar => "invalid character in year"
  | .monthChar => "invalid character in month"
  | .dayChar => "invalid character in day"
  | .separator => "invalid date separator, expected \x60-\x60"
  | .month => "month value is outside expected range of 1-12"
  | .day => "day value is outside expected range"
  | .extra => "unexpected extra characters at the end of the input"
  | .yearZero => "year 0 is out of range"
  | .tooEarly => "dates before 0000 are not supported as unix timestamps"
  | .tooLate => "dates after 9999 are not supported as unix timestamps"
  | .noNumber => "NaN values not permitted"

/-! ## Numbers -/

/-- Numbers beyond this one count milliseconds. -/
def watermark : Int := 20000000000

/-- A number of microseconds since 1970 as a moment in UTC. The year 0 can be counted to, but there is
no moment in it. -/
def ofMicros (t : Int) : Except Fault Moment :=
  if t < -62167219200 * Moment.second then .error .tooEarly
  else if 253402300800 * Moment.second ≤ t then .error .tooLate
  else if Moment.epoch + t < 0 then .error .yearZero
  else .ok ⟨Moment.epoch + t, some 0⟩

/-- An integer number of seconds or milliseconds. -/
def ofInt (n : Int) : Except Fault Moment :=
  ofMicros (if n.natAbs ≤ watermark then n * 1000000 else n * 1000)

/-- The nearest integer to a double that is not negative, a half upwards. -/
def roundUp (x : Float) : Int :=
  match Decimal.Binary.ofFloat x with
  | .finite _ m e =>
    let den := Decimal.scaleUp 1 (-e)
    ((2 * Decimal.scaleUp m e + den) / (2 * den) : Nat)
  | _ => 0

/-- What a double exceeds an integer by. -/
def excess (x : Float) (n : Int) : Float := x - Decimal.nearest (decide (n < 0)) n.natAbs 1

/-- A number of seconds or milliseconds: the whole number below it, and the rest to the nearest
microsecond. -/
def ofFloat (x : Float) : Except Fault Moment :=
  match Decimal.Binary.ofFloat x, Decimal.floor? x with
  | .infinite negative, _ => .error (if negative then .tooEarly else .tooLate)
  | _, some n =>
    if x.abs > 20000000000.0 then ofMicros (n * 1000 + roundUp (excess x n * 1000.0))
    else ofMicros (n * 1000000 + roundUp (excess x n * 1000000.0))
  | _, none => .error .noNumber

/-! ## Texts -/

/-- The digit at the front of a text. -/
def digit? : List Char → Option Nat
  | c :: _ => Text.asciiDigit? c
  | [] => none

/-- The number that the first `n` characters of a text write in digits. -/
def digits? (n : Nat) (cs : List Char) : Option Nat :=
  let ds := (cs.take n).filterMap Text.asciiDigit?
  if ds.length = n then some (Decimal.ofDigits ds) else none

/-- The date at the front of a text, and the rest. -/
def dateAt (size : Nat) (cs : List Char) : Except Fault (Date × List Char) := do
  if size < 10 then throw .tooShort
  let some year := digits? 4 cs | throw .yearChar
  let cs := cs.drop 4
  if cs.head? != some '-' then throw .separator
  let cs := cs.drop 1
  let some month := digits? 2 cs | throw .monthChar
  let cs := cs.drop 2
  if cs.head? != some '-' then throw .separator
  let cs := cs.drop 1
  let some day := digits? 2 cs | throw .dayChar
  if month < 1 || 12 < month then throw .month
  if day < 1 || Date.daysInMonth year month < day then throw .day
  return (⟨year, month, day⟩, cs.drop 2)

/-- An offset in seconds at the front of a text, with nothing after it; none for no text. -/
def offset? (cs : List Char) : Option (Option Int) :=
  match cs with
  | [] => some none
  | ['Z'] => some (some 0)
  | ['z'] => some (some 0)
  | s :: rest => do
    let negative ←
      if s == '+' then some false
      else if s == '-' || s.toNat == 0x2212 then some true
      else none
    let hours ← digits? 2 rest
    let rest := rest.drop 2
    let rest := if rest.head? == some ':' then rest.drop 1 else rest
    let minutes ← digits? 2 rest
    if 60 ≤ minutes || 24 ≤ hours || !(rest.drop 2).isEmpty then none
    return some (Decimal.signed negative (hours * 3600 + minutes * 60))

/-- A fraction of a second in microseconds, digits past the sixth dropped, and the rest. -/
def fraction? (cs : List Char) : Option (Int × List Char) :=
  match cs with
  | c :: rest =>
    if c == '.' || c == ',' then
      let ds := (rest.takeWhile Char.isDigit).filterMap Text.asciiDigit?
      let kept := ds.take 6
      if ds.isEmpty then none
      else some (Decimal.ofDigits kept * Nat.pow 10 (6 - kept.length), rest.dropWhile Char.isDigit)
    else some (0, cs)
  | [] => some (0, [])

/-- A time of day in microseconds, and its offset: hours and minutes, optional seconds and fraction,
an optional offset. -/
def time? (cs : List Char) : Option (Int × Option Int) := do
  let hour ← digits? 2 cs
  let cs := cs.drop 2
  if cs.head? != some ':' then none
  let cs := cs.drop 1
  let minute ← digits? 2 cs
  let cs := cs.drop 2
  if 23 < hour || 59 < minute then none
  let whole : Int := (hour * 60 + minute) * 60
  if cs.head? == some ':' then
    let cs := cs.drop 1
    let second ← digits? 2 cs
    if 59 < second then none
    let (micros, rest) ← fraction? (cs.drop 2)
    let offset ← offset? rest
    return ((whole + second) * Moment.second + micros, offset)
  else
    let offset ← offset? cs
    return (whole * Moment.second, offset)

/-- A date and a time with one of four separators between them. -/
def dateTime? (d : Date) (cs : List Char) : Option Moment := do
  let sep ← cs.head?
  if !List.contains ['T', 't', ' ', '_'] sep then none
  let (time, offset) ← time? (cs.drop 1)
  return .ofDate d time offset

/-- A number in digits with an optional sign: whole, or with a point. -/
inductive Number where
  | whole (n : Int)
  | point (x : Float)

/-- The number that a text writes: digits that fit 63 bits, or, where a point follows the first
digits, any decimal number. -/
def number? (cs : List Char) : Option Number :=
  let (negative, bare) := Decimal.signAt cs
  let whole := bare.takeWhile Char.isDigit
  let n := Decimal.ofDigits (whole.filterMap Text.asciiDigit?)
  if 9223372036854775808 ≤ n || cs.contains '_' then none
  else match bare.dropWhile Char.isDigit with
    | [] => if whole.isEmpty then none else some (.whole (Decimal.signed negative n))
    | '.' :: _ => (Decimal.bareNumber? Text.asciiDigit? cs).map .point
    | _ => none

/-- The moment that a text stands for. -/
def ofText (s : String) : Except Fault Moment :=
  let cs := s.toList
  match dateAt s.utf8ByteSize cs with
  | .ok (d, rest) =>
    match if rest.isEmpty then some (.ofDate d 0 none) else dateTime? d rest with
    | none => .error .extra
    | some m => if d.year = 0 then .error .yearZero else .ok m
  | .error e =>
    match number? cs with
    | some (.whole n) => ofInt n
    | some (.point x) =>
      match ofFloat x with
      | .ok m => .ok m
      | .error .yearZero => .error .yearZero
      | .error _ => .error e
    | none => .error e

end TaskAutomation.Stamp
