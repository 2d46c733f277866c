import TaskAutomation.Calendar.Moment
import TaskAutomation.Decimal.Numeral

/-!
# ISO 8601

* `Iso.read? s` : the moment that a date, or a date and time, stands for. Dates are years alone,
  year and month, year, month and day, year and week with an optional day, or year and day of the
  year, each with or without dashes; any character stands between date and time; times have hours
  and optional minutes, seconds and fraction, and end in an optional offset; hour 24 is the midnight
  that ends a day.

A field holds digits and nothing else: no blank, sign or underscore counts towards its width.
-/

namespace TaskAutomation.Iso

/-- The number that a field writes in digits. -/
def field? (cs : List Char) : Option Nat :=
  if cs.isEmpty || !cs.all Char.isDigit then none
  else some (Decimal.ofDigits (cs.filterMap Text.asciiDigit?))

/-- A year, month and day that have been read, not yet checked. -/
structure Fields where
  year : Nat
  month : Nat
  day : Nat

/-- A year alone, year and month, or year, month and day, and the rest of the text. -/
def calendarDate? (cs : List Char) : Option (Fields × List Char) := do
  if cs.length < 4 then none
  let year ← field? (cs.take 4)
  let cs := cs.drop 4
  if cs.isEmpty then return (⟨year, 1, 1⟩, [])
  let dashed := cs.head? == some '-'
  let cs := if dashed then cs.drop 1 else cs
  if cs.length < 2 then none
  let month ← field? (cs.take 2)
  let cs := cs.drop 2
  if cs.isEmpty then
    if dashed then return (⟨year, month, 1⟩, []) else none
  if dashed && cs.head? != some '-' then none
  let cs := if dashed then cs.drop 1 else cs
  if cs.length < 2 then none
  let day ← field? (cs.take 2)
  return (⟨year, month, day⟩, cs.drop 2)

/-- Reads a date that has been computed as fields. -/
def Fields.ofDate (d : Date) : Fields := ⟨d.year, d.month, d.day⟩

/-- Year and week with an optional day, or year and day of the year, and the rest of the text. -/
def ordinalDate? (cs : List Char) : Option (Fields × List Char) := do
  if cs.length < 4 then none
  let year ← field? (cs.take 4)
  let cs := cs.drop 4
  let dashed := cs.head? == some '-'
  let cs := if dashed then cs.drop 1 else cs
  if cs.head? == some 'W' then
    let cs := cs.drop 1
    let week ← field? (cs.take 2)
    let cs := cs.drop 2
    if cs.isEmpty then
      let d ← Date.ofWeek? year week 1
      return (.ofDate d, [])
    if (cs.head? == some '-') != dashed then none
    let cs := if dashed then cs.drop 1 else cs
    let day ← field? (cs.take 1)
    let d ← Date.ofWeek? year week day
    return (.ofDate d, cs.drop 1)
  else
    if cs.length < 3 then none
    let n ← field? (cs.take 3)
    if year < 1 || 9999 < year then none
    if n < 1 || (if Date.isLeap year then 366 else 365) < n then none
    return (.ofDate (Date.ofDays (Date.daysBeforeYear year + (n - 1))), cs.drop 3)

/-- An offset in seconds: `Z`, or a sign, two digits of hours, and optional minutes. -/
def offset? (cs : List Char) : Option Int := do
  if cs == ['Z'] || cs == ['z'] then return 0
  if cs.length ≠ 3 && cs.length ≠ 5 && cs.length ≠ 6 then none
  let sign : Int ← match cs.head? with
    | some '-' => some (-1)
    | some '+' => some 1
    | _ => none
  let hours ← field? ((cs.drop 1).take 2)
  let minutes ←
    if cs.length = 3 then some 0
    else field? (if (cs.drop 3).head? == some ':' then cs.drop 4 else cs.drop 3)
  if 59 < minutes || 23 < hours then none
  return sign * (hours * 3600 + minutes * 60 : Nat)

/-- A fraction of a second in microseconds, and its length: a point or comma and digits, those past
the sixth dropped. -/
def fraction? (cs : List Char) : Option (Nat × Nat) :=
  match cs with
  | c :: rest =>
    if c == '.' || c == ',' then
      let ds := (rest.takeWhile Char.isDigit).filterMap Text.asciiDigit?
      if ds.isEmpty then none
      else
        let kept := ds.take 6
        some (Decimal.ofDigits kept * Nat.pow 10 (6 - kept.length), ds.length + 1)
    else none
  | [] => none

/-- The fields of a time of day. -/
structure Clock where
  hour : Nat := 0
  minute : Nat := 0
  second : Nat := 0
  micro : Nat := 0
  offset : Option Int := none

/-- Sets the field of a number: hour, minute or second. -/
def Clock.set (c : Clock) (index n : Nat) : Clock :=
  match index with
  | 0 => { c with hour := n }
  | 1 => { c with minute := n }
  | _ => { c with second := n }

/-- Reads the fields of a time from the one of number `index` on; `steps` are left until number 5. -/
def timeFields? (steps index : Nat) (colons : Bool) (c : Clock) (cs : List Char) : Option Clock :=
  match steps with
  | 0 => if cs.isEmpty then some c else none
  | steps + 1 =>
    match cs with
    | [] => some c
    | x :: rest =>
      if x == '-' || x == '+' || x == 'Z' || x == 'z' then
        (offset? cs).map fun o => { c with offset := some o }
      else if index = 3 then
        match fraction? cs with
        | some (n, length) => timeFields? steps (index + 1) colons { c with micro := n } (cs.drop length)
        | none => timeFields? steps (index + 1) colons c cs
      else if 3 < index then timeFields? steps (index + 1) colons c cs
      else if index = 2 && colons && x != ':' then none
      else
        let colon := (index = 1 && x == ':') || (index = 2 && colons)
        let cs := if colon then rest else cs
        match field? (cs.take 2) with
        | some n => timeFields? steps (index + 1) (colons || (index = 1 && colon)) (c.set index n) (cs.drop 2)
        | none => none

/-- Reads a time of day; hour 24 only as midnight. -/
def time? (cs : List Char) : Option Clock := do
  if cs.length < 2 then none
  let c ← timeFields? 6 0 false {} cs
  if c.hour = 24 && (c.minute ≠ 0 || c.second ≠ 0 || c.micro ≠ 0) then none
  return c

/-- The moment of a date and a time, if both exist. -/
def moment? (f : Fields) (c : Clock) : Option Moment := do
  let d : Date := ⟨f.year, f.month, f.day⟩
  if !d.isValid then none
  let late := c.hour = 24
  let hour := if late then 0 else c.hour
  if 23 < hour || 59 < c.minute || 59 < c.second then none
  let time := ((hour * 60 + c.minute) * 60 + c.second : Nat) * Moment.second + c.micro
  let m := Moment.ofDate d time c.offset
  if late then m.add? Moment.day else return m

/-- The moment that a text stands for. -/
def read? (s : String) : Option Moment := do
  let cs := s.toList
  if !cs.all fun c => c.toNat < 128 then none
  let (f, rest) ← (calendarDate? cs).or (ordinalDate? cs)
  if rest.isEmpty then moment? f {}
  else moment? f (← time? (rest.drop 1))

end TaskAutomation.Iso
