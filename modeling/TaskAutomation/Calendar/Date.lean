/-!
# Dates

* `Date` : a year, month and day of the Gregorian calendar; `Date.isValid` for years 1 to 9999;
* `Date.toDays`, `Date.ofDays` : dates as days counted from the first of January of year 1;
* `Date.addMonths` : the same day some months later, or the last day of a shorter month;
* `Date.ofWeek?` : the date of a day of a numbered week; week 1 holds the fourth of January.
-/

namespace TaskAutomation

/-- A date of the Gregorian calendar. -/
structure Date where
  year : Nat
  month : Nat
  day : Nat
  deriving DecidableEq, Repr

namespace Date

/-- Leap years: every fourth, of the hundreds only every fourth. -/
def isLeap (year : Nat) : Bool :=
  year % 4 == 0 && (year % 100 != 0 || year % 400 == 0)

/-- The lengths of the months of a year. -/
def monthLengths (leap : Bool) : List Nat :=
  [31, if leap then 29 else 28, 31, 30, 31, 30, 31, 31, 30, 31, 30, 31]

/-- The length of a month, 0 for what is no month. -/
def daysInMonth (year month : Nat) : Nat :=
  if month = 0 then 0 else ((monthLengths (isLeap year))[month - 1]?).getD 0

/-- The days before the first of January of a year. -/
def daysBeforeYear (year : Nat) : Nat :=
  let y := year - 1
  365 * y + y / 4 - y / 100 + y / 400

/-- The days of a year before a month. -/
def daysBeforeMonth (year month : Nat) : Nat :=
  ((monthLengths (isLeap year)).take (month - 1)).foldr (· + ·) 0

/-- A date that exists, in the years 1 to 9999. -/
def isValid (d : Date) : Bool :=
  decide (1 ≤ d.year ∧ d.year ≤ 9999 ∧ 1 ≤ d.month ∧ d.month ≤ 12
    ∧ 1 ≤ d.day ∧ d.day ≤ daysInMonth d.year d.month)

/-- The days from the first of January of year 1 to a date. -/
def toDays (d : Date) : Nat :=
  daysBeforeYear d.year + daysBeforeMonth d.year d.month + (d.day - 1)

/-- The number of days from year 1 to the end of year 9999. -/
def dayLimit : Nat := 3652059

/-- The month and day of a day of the year, the months from `month` on having the given lengths. -/
def monthDay (month : Nat) : List Nat → Nat → Nat × Nat
  | [], n => (month, n + 1)
  | l :: ls, n => if n < l then (month, n + 1) else monthDay (month + 1) ls (n - l)

/-- The year that a day falls in: the last one that begins no later. A year has 365 or 366 days,
which bounds it from both sides. -/
def yearOfDays (n : Nat) : Nat :=
  let first := n / 366 + 1
  let candidates := List.range' first (n / 365 - n / 366 + 1)
  (candidates.filter fun y => daysBeforeYear y ≤ n).getLastD first

/-- The date that comes `n` days after the first of January of year 1. -/
def ofDays (n : Nat) : Date :=
  let year := yearOfDays n
  let (month, day) := monthDay 1 (monthLengths (isLeap year)) (n - daysBeforeYear year)
  ⟨year, month, day⟩

/-- The same day some months later, or the last day of a shorter month. -/
def addMonths (d : Date) (n : Nat) : Date :=
  let total := d.year * 12 + (d.month - 1) + n
  let year := total / 12
  let month := total % 12 + 1
  ⟨year, month, min d.day (daysInMonth year month)⟩

/-- The day of the week that a day falls on, 0 for Monday. -/
def weekday (n : Nat) : Nat := n % 7

/-- The date of a day, 1 to 7, of a week of a year, if it is one of the years 1 to 9999. -/
def ofWeek? (year week day : Nat) : Option Date :=
  if 1 ≤ year ∧ year ≤ 9999 ∧ 0 < week ∧ week < 54 ∧ 0 < day ∧ day < 8 then
    let jan4 := daysBeforeYear year + 3
    let n : Int := jan4 - weekday jan4 + (week - 1) * 7 + (day - 1)
    if 0 ≤ n ∧ n < dayLimit then some (ofDays n.toNat) else none
  else none

end Date

end TaskAutomation
