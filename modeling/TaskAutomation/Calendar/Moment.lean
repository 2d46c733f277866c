import TaskAutomation.Calendar.Date
import TaskAutomation.Decimal.Layout

/-!
# Moments

* `Moment` : a date and time of day to the microsecond, with the offset from UTC of the clock that
  shows it, if known;
* `Moment.instant` : the microseconds in UTC since the start of year 1; `Moment.inUtc` takes a
  moment without an offset to be in UTC; `Moment.toUtc?` shows a moment on the clock of UTC, unless
  that leaves the years 1 to 9999;
* `Moment.iso` and `Moment.stamp` : a moment as text; UTC is `+00:00` in the first and `Z` in the
  second, which shows offsets to the minute;
* `Moment.seconds` : the seconds between two instants, as a double.
-/

namespace TaskAutomation

/-- A date and time of day on a clock, in microseconds since the start of year 1, and the seconds
that the clock is ahead of UTC. -/
structure Moment where
  wall : Int
  offset : Option Int
  deriving DecidableEq, Repr, Inhabited

namespace Moment

/-- The microseconds of a second. -/
def second : Int := 1000000

/-- The microseconds of a day. -/
def day : Int := 86400 * second

/-- The first microsecond after the year 9999. -/
def limit : Int := Date.dayLimit * day

/-- The microseconds from the start of year 1 to the start of 1970. -/
def epoch : Int := 719162 * day

/-- A wall clock can show this time. -/
def shows (wall : Int) : Bool := decide (0 ≤ wall ∧ wall < limit)

/-- The microseconds in UTC since the start of year 1; without an offset the clock is in UTC. -/
def instant (m : Moment) : Int := m.wall - m.offset.getD 0 * second

/-- The offset is not known. -/
def isNaive (m : Moment) : Bool := m.offset.isNone

/-- A moment without an offset is taken to be in UTC. -/
def inUtc (m : Moment) : Moment := ⟨m.wall, some (m.offset.getD 0)⟩

/-- The moment of an instant, on the clock of UTC. -/
def ofInstant (t : Int) : Moment := ⟨t, some 0⟩

/-- The same instant on the clock of UTC, if that clock can show it. -/
def toUtc? (m : Moment) : Option Moment :=
  if shows m.instant then some (ofInstant m.instant) else none

/-- A later or earlier moment on the same clock, if the clock can show it. -/
def add? (m : Moment) (micros : Int) : Option Moment :=
  if shows (m.wall + micros) then some ⟨m.wall + micros, m.offset⟩ else none

/-- The date that the clock shows. -/
def date (m : Moment) : Date := Date.ofDays (m.wall / day).toNat

/-- The microseconds since midnight that the clock shows. -/
def timeOfDay (m : Moment) : Int := m.wall % day

/-- A moment from a date, the microseconds since its midnight, and an offset. -/
def ofDate (d : Date) (time : Int) (offset : Option Int) : Moment :=
  ⟨d.toDays * day + time, offset⟩

/-- The start of a day in UTC. -/
def midnight (d : Date) : Moment := ofDate d 0 (some 0)

/-! ## Text -/

/-- A number in at least `width` digits. -/
def digits (width n : Nat) : String := Decimal.zeroFill width (toString n)

/-- A date as year, month and day. -/
def dateText (d : Date) : String :=
  digits 4 d.year ++ "-" ++ digits 2 d.month ++ "-" ++ digits 2 d.day

/-- Hours and minutes of a number of seconds, and the seconds if there are any. -/
def offsetText (n : Nat) : String :=
  digits 2 (n / 3600) ++ ":" ++ digits 2 (n / 60 % 60)
    ++ (if n % 60 = 0 then "" else ":" ++ digits 2 (n % 60))

/-- Date and time; microseconds in six digits unless there are none. -/
def wallText (m : Moment) : String :=
  let t := m.timeOfDay.toNat
  let s := t / 1000000
  let fraction := if t % 1000000 = 0 then "" else "." ++ digits 6 (t % 1000000)
  dateText m.date ++ "T" ++ digits 2 (s / 3600) ++ ":" ++ digits 2 (s / 60 % 60) ++ ":"
    ++ digits 2 (s % 60) ++ fraction

/-- The sign of an offset. -/
def offsetSign (o : Int) : String := if o < 0 then "-" else "+"

/-- An offset with its sign. -/
def signedOffset (o : Int) : String := offsetSign o ++ offsetText o.natAbs

/-- An offset with its sign, in hours and minutes. -/
def minuteOffset (o : Int) : String :=
  offsetSign o ++ digits 2 (o.natAbs / 3600) ++ ":" ++ digits 2 (o.natAbs / 60 % 60)

/-- A moment with its offset as `+00:00`, or none if it is not known. -/
def iso (m : Moment) : String :=
  m.wallText ++ (match m.offset with
    | none => ""
    | some o => signedOffset o)

/-- A moment with its offset to the minute, `Z` for UTC, or none if it is not known. -/
def stamp (m : Moment) : String :=
  m.wallText ++ (match m.offset with
    | none => ""
    | some o => if o = 0 then "Z" else minuteOffset o)

/-! ## Durations -/

/-- Microseconds as a number of seconds, rounded to a double. -/
def secondsOf (micros : Int) : Float :=
  Decimal.nearest (decide (micros < 0)) micros.natAbs 1000000

/-- The seconds since 1970 of a moment, as a double. -/
def timestamp (m : Moment) : Float := secondsOf (m.instant - epoch)

end Moment

end TaskAutomation
