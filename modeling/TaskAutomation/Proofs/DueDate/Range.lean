import TaskAutomation.Proofs.Calendar.Month
import TaskAutomation.Proofs.DueDate.Absolute

/-!
# Due dates within the years 1 to 9999

Days, months, offsets and the midnight of hour 24 can each lead off the clock. Counted on a calendar
without an end they lead to times that are all there, and a due date is resolved by asking whether clocks
can show them.

* `Directive.target d base` : where a directive leads from a moment; `Directive.after?_eq` : this is its
  answer, if a clock can show it;
* `Iso.Real f c`, `Iso.wall f c` : fields that make a date and a time of day, and the time that they name;
  `Iso.moment?_eq` : the same for these;
* `DueDate.Spec.times?` : the times on the way from a specification to its moment, the moment last;
  `DueDate.arrival?` : the moment at the end of the way, if clocks can show all of it;
* `DueDate.resolve_exact` : a due date is resolved to its moment if every time on the way can be shown,
  and to nothing otherwise. Only a moment that is given as one fails, where the clock of UTC cannot show it.
-/

namespace TaskAutomation

open Moment

/-! ## Directives -/

namespace Directive

/-- Where a directive leads from a moment, on a calendar without an end. -/
def target (d : Directive) (base : Moment) : Int :=
  match d.unit with
  | .days => base.wall + d.amount * day
  | .weeks => base.wall + 7 * d.amount * day
  | .months => (base.date.addMonths d.amount).toDays * day + base.timeOfDay

variable {base : Moment}

/-- Months lead to a date up to the year 9999 just when its day is one of those counted there. -/
theorem isValid_addMonths_iff {date : Date} (h : date.isValid = true) (n : Nat) :
    (date.addMonths n).isValid = true ↔ (date.addMonths n).toDays < Date.dayLimit := by
  refine ⟨Date.toDays_lt, fun hlt => ?_⟩
  rw [Date.isValid_addMonths h]
  by_contra hlate
  have hstart : Date.monthStart 120000 ≤ Date.monthStart (date.monthIndex + n) :=
    Date.monthStart_mono (by decide) (by omega)
  have hlimit : Date.monthStart 120000 = Date.dayLimit := by decide
  rw [Date.toDays_addMonths] at hlt
  omega

/-- A directive leads to its target, if a clock can show it. -/
theorem after?_eq (h : base.InUtc) (d : Directive) :
    d.after? base = if shows (d.target base) then some (ofInstant (d.target base)) else none := by
  obtain ⟨n, u⟩ := d
  unfold after? target
  cases u with
  | days => simp only [add?, h.utc, ofInstant]
  | weeks => simp only [add?, h.utc, ofInstant]
  | months =>
    have hvalid : base.date.isValid = true := Date.isValid_ofDays h.shown.days_lt
    have htime : 0 ≤ base.timeOfDay ∧ base.timeOfDay < day := by
      unfold timeOfDay day second
      omega
    have hshows : shows ((base.date.addMonths n).toDays * day + base.timeOfDay) =
        (base.date.addMonths n).isValid := by
      rw [Bool.eq_iff_iff, isValid_addMonths_iff hvalid, shows, decide_eq_true_eq]
      unfold limit day second at *
      omega
    simp only [hshows, h.utc, ofDate, ofInstant]

end Directive

/-! ## Dates and times of day -/

namespace Iso

variable {cs : List Char} {f : Fields} {c c' : Clock}

/-- The date that fields name. -/
def Fields.date (f : Fields) : Date := ⟨f.year, f.month, f.day⟩

/-- The fields make a date and a time of day, the midnight at its end included. -/
def Real (f : Fields) (c : Clock) : Prop :=
  f.date.isValid = true ∧ c.hour ≤ 24 ∧ c.minute ≤ 59 ∧ c.second ≤ 59

instance (f : Fields) (c : Clock) : Decidable (Real f c) :=
  inferInstanceAs (Decidable (_ ∧ _ ∧ _ ∧ _))

/-- The time that a date and a time of day name, on a calendar without an end. -/
def wall (f : Fields) (c : Clock) : Int :=
  f.date.toDays * day + (((c.hour * 60 + c.minute) * 60 + c.second : Nat) * second + c.micro)

/-- The instant of a date and a time of day in UTC; without an offset the clock is in UTC. -/
def instant (f : Fields) (c : Clock) : Int := wall f c - c.offset.getD 0 * second

theorem instant_mk : (⟨wall f c, c.offset⟩ : Moment).instant = instant f c := rfl

/-- The fields of the date and of the time of day that a text writes. -/
def parts? (s : String) : Option (Fields × Clock) := do
  if !s.toList.all fun c => c.toNat < 128 then none
  let (f, rest) ← (calendarDate? s.toList).or (ordinalDate? s.toList)
  if rest.isEmpty then return (f, {})
  return (f, ← time? (rest.drop 1))

theorem read?_eq (s : String) : read? s = (parts? s).bind fun p => moment? p.1 p.2 := by
  unfold read? parts?
  dsimp only
  split
  · rfl
  · cases (calendarDate? s.toList).or (ordinalDate? s.toList) with
    | none => rfl
    | some p =>
      obtain ⟨f, rest⟩ := p
      simp only [Option.bind_eq_bind, Option.bind_some]
      split
      · rfl
      · cases time? (rest.drop 1) <;> rfl

theorem fraction?_lt {n length : Nat} (h : fraction? cs = some (n, length)) : n < 1000000 := by
  unfold fraction? at h
  split at h
  · next x rest =>
    split at h
    · simp only at h
      split at h
      · cases h
      · have hbound := Stamp.micros_lt (rest.takeWhile Char.isDigit)
        cases h
        exact hbound
    · cases h
  · cases h

@[simp] theorem micro_set (c : Clock) (index n : Nat) : (c.set index n).micro = c.micro := by
  unfold Clock.set
  split <;> rfl

/-- The microseconds of a time of day that is read are less than a second. -/
theorem timeFields?_micro {steps index : Nat} {colons : Bool} (hc : c.micro < 1000000)
    (h : timeFields? steps index colons c cs = some c') : c'.micro < 1000000 := by
  fun_induction timeFields? steps index colons c cs with
  | case1 | case3 =>
    cases h
    exact hc
  | case4 index colons c x rest steps hzone =>
    obtain ⟨o, -, rfl⟩ := Option.map_eq_some_iff.mp h
    exact hc
  | case5 colons c steps x rest _ n length hfraction ih =>
    rw [hfraction] at h
    exact ih (fraction?_lt hfraction) h
  | case6 colons c steps x rest _ hfraction ih =>
    rw [hfraction] at h
    exact ih hc h
  | case7 _ _ _ _ _ _ _ _ _ ih => exact ih hc h
  | case9 index colons c steps x rest _ _ _ _ colon n cs hfield ih =>
    dsimp only at h
    rw [show field? (List.take 2 (if colon then rest else x :: rest)) = some n from hfield] at h
    exact ih (by rwa [micro_set]) h
  | case10 index colons c steps x rest _ _ _ _ colon cs hfield =>
    dsimp only at h
    rw [show field? (List.take 2 (if colon then rest else x :: rest)) = none from hfield] at h
    cases h
  | case2 | case8 => cases h

theorem micro_of_time? (h : time? cs = some c) : c.micro < 1000000 := by
  unfold time? at h
  split at h
  · cases h
  · obtain ⟨c', hfields, h⟩ := Option.bind_eq_some_iff.mp h
    split at h
    · cases h
    · cases h
      exact timeFields?_micro (by decide) hfields

theorem micro_of_parts? {s : String} (h : parts? s = some (f, c)) : c.micro < 1000000 := by
  unfold parts? at h
  split at h
  · cases h
  · obtain ⟨⟨f', rest⟩, -, h⟩ := Option.bind_eq_some_iff.mp h
    dsimp only at h
    split at h
    · cases h
      decide
    · obtain ⟨c', htime, h⟩ := Option.bind_eq_some_iff.mp h
      cases h
      exact micro_of_time? htime

/-- Before the midnight at the end of a day, clocks show every time of every date. -/
theorem shows_wall (h : Real f c) (hhour : c.hour < 24) (hmicro : c.micro < 1000000) :
    shows (wall f c) = true := by
  obtain ⟨hvalid, -, hminute, hsecond⟩ := h
  have hdays : f.date.toDays < Date.dayLimit := Date.toDays_lt hvalid
  rw [shows, decide_eq_true_eq]
  unfold wall limit day second
  omega

/-- The midnight at the end of a day is reached from its start. -/
theorem moment?_cases : moment? f c =
    if Real f c then
      if c.hour = 24 then
        (ofDate f.date (((0 * 60 + c.minute) * 60 + c.second : Nat) * second + c.micro) c.offset).add? day
      else some ⟨wall f c, c.offset⟩
    else none := by
  have hguard : (decide (23 < if c.hour = 24 then 0 else c.hour) || decide (59 < c.minute) ||
      decide (59 < c.second)) = true ↔ ¬(c.hour ≤ 24 ∧ c.minute ≤ 59 ∧ c.second ≤ 59) := by
    simp only [Bool.or_eq_true, decide_eq_true_eq]
    split <;> omega
  unfold moment?
  by_cases hvalid : f.date.isValid = true
  · have hdate : (!(⟨f.year, f.month, f.day⟩ : Date).isValid) = false := by
      rw [Bool.not_eq_false']
      exact hvalid
    simp only [Real, hvalid, hdate, Bool.false_eq_true, if_false, true_and]
    by_cases htime : c.hour ≤ 24 ∧ c.minute ≤ 59 ∧ c.second ≤ 59
    · rw [if_neg (by rwa [hguard, not_not]), if_pos htime]
      split <;> rfl
    · rw [if_pos (hguard.mpr htime), if_neg htime]
      rfl
  · have hdate : (!(⟨f.year, f.month, f.day⟩ : Date).isValid) = true := by
      rw [Bool.not_eq_true', ← Bool.not_eq_true]
      exact hvalid
    have hunreal : ¬Real f c := fun h => hvalid h.1
    simp only [hdate, if_true, if_neg hunreal]
    rfl

/-- Fields stand for the time that they name, if a clock can show it. -/
theorem moment?_eq (hmicro : c.micro < 1000000) : moment? f c =
    if Real f c ∧ shows (wall f c) = true then some ⟨wall f c, c.offset⟩ else none := by
  rw [moment?_cases]
  by_cases hreal : Real f c
  · by_cases hlate : c.hour = 24
    · have hwall : f.date.toDays * day + (((0 * 60 + c.minute) * 60 + c.second : Nat) * second + c.micro) + day
          = wall f c := by
        unfold wall day second
        omega
      simp only [hreal, hlate, if_true, true_and, add?, ofDate, hwall]
    · have hshows := shows_wall hreal (Nat.lt_of_le_of_ne hreal.2.1 hlate) hmicro
      rw [if_pos hreal, if_neg hlate, if_pos ⟨hreal, hshows⟩]
  · rw [if_neg hreal, if_neg fun h => hreal h.1]

end Iso

/-! ## Due dates -/

namespace DueDate

variable {reference : Moment} {spec : Spec}

/-- The times on the way from a text to its moment: the reference and what lies a directive ahead of it, or
the time that a date names and its instant. -/
def textTimes? (reference : Moment) (s : String) : Option (List Int) :=
  let cs := Text.trimList Text.isBlank s.toList
  match Directive.read? cs with
  | some d => some [reference.instant, d.target (ofInstant reference.instant)]
  | none => (Iso.parts? (String.ofList cs)).bind fun p =>
    if Iso.Real p.1 p.2 then some [Iso.wall p.1 p.2, Iso.instant p.1 p.2] else none

/-- The times on the way from a specification to its moment, the moment last; what names no time has none. -/
def Spec.times? (reference : Moment) : Spec → Option (List Int)
  | .value (.str s) => if s.isEmpty then none else textTimes? reference s
  | .value _ => none
  | .date d => some [d.toDays * day]
  | .moment m => some [m.instant]

/-- The moment at the end of a way that clocks can show. -/
def arrival? (times : List Int) : Option Moment :=
  if times.all shows then times.getLast?.map ofInstant else none

theorem arrival?_pair (s t : Int) :
    arrival? [s, t] = if shows s then (if shows t then some (ofInstant t) else none) else none := by
  unfold arrival?
  cases hs : shows s <;> cases ht : shows t <;> simp [hs, ht]

theorem ofText_eq (s : String) : ofText reference s = (textTimes? reference s).bind arrival? := by
  unfold ofText textTimes?
  dsimp only
  cases Directive.read? (Text.trimList Text.isBlank s.toList) with
  | some d =>
    simp only [Option.bind_some, arrival?_pair, toUtc?]
    by_cases hshows : shows reference.instant = true
    · have hutc : (ofInstant reference.instant).InUtc := inUtc_of_shows hshows
      rw [if_pos hshows, if_pos hshows, Option.bind_some, Directive.after?_eq hutc]
    · rw [if_neg hshows, if_neg hshows, Option.bind_none]
  | none =>
    rw [Iso.read?_eq]
    cases hparts : Iso.parts? (String.ofList (Text.trimList Text.isBlank s.toList)) with
    | none => rfl
    | some p =>
      obtain ⟨f, c⟩ := p
      simp only [Option.bind_some, Iso.moment?_eq (Iso.micro_of_parts? hparts)]
      by_cases hreal : Iso.Real f c
      · rw [if_pos hreal, Option.bind_some, arrival?_pair]
        by_cases hshows : shows (Iso.wall f c) = true
        · rw [if_pos hshows, if_pos ⟨hreal, hshows⟩, Option.bind_some, toUtc?, Iso.instant_mk]
        · rw [if_neg hshows, if_neg fun h => hshows h.2, Option.bind_none]
      · rw [if_neg hreal, if_neg fun h => hreal h.1, Option.bind_none, Option.bind_none]

example : ofText ⟨0, some 0⟩ "9999-12-31T24:00" = none := by decide +kernel

theorem resolve_eq (v : Value) :
    resolve reference v = ((Spec.value v).times? reference).bind arrival? := by
  cases v with
  | str s =>
    unfold resolve Spec.times?
    dsimp only
    split
    · rfl
    · exact ofText_eq s
  | _ => rfl

/-- A moment that is given as one fails just where the clock of UTC cannot show it; all else is resolved to the
moment at the end of its way, in UTC, or to nothing where the way leaves the clock. -/
theorem resolve_exact (hdate : ∀ d, spec = .date d → d.isValid = true) (reference : Moment) :
    (spec.resolve reference = .error {} ↔ ∃ m, spec = .moment m ∧ shows m.instant = false) ∧
    ∀ answer, spec.resolve reference = .ok answer →
      answer = (spec.times? reference).bind arrival? ∧ ∀ m ∈ answer, m.InUtc := by
  have hutc : ∀ answer, spec.resolve reference = .ok answer → ∀ m ∈ answer, m.InUtc := by
    intro answer h m hm
    cases hm
    exact inUtc_of_spec hdate h
  suffices h : (spec.resolve reference = .error {} ↔ ∃ m, spec = .moment m ∧ shows m.instant = false) ∧
      ∀ answer, spec.resolve reference = .ok answer → answer = (spec.times? reference).bind arrival? from
    ⟨h.1, fun answer hanswer => ⟨h.2 answer hanswer, hutc answer hanswer⟩⟩
  cases spec with
  | value v =>
    refine ⟨by simp [Spec.resolve], fun answer h => ?_⟩
    cases h
    exact resolve_eq v
  | date d =>
    refine ⟨by simp [Spec.resolve], fun answer h => ?_⟩
    have hshows : shows (d.toDays * day) = true := by
      have := Date.toDays_lt (hdate d rfl)
      rw [shows, decide_eq_true_eq]
      unfold limit day second
      omega
    have harrival : arrival? [d.toDays * day] = some (ofInstant (d.toDays * day)) := by
      simp [arrival?, hshows]
    rw [Spec.times?, Option.bind_some, harrival]
    have hmidnight : midnight d = ofInstant (d.toDays * day) := by
      rw [midnight, ofDate, Int.add_zero, ofInstant]
    rw [Spec.resolve, hmidnight] at h
    exact (Except.ok.inj h).symm
  | moment m =>
    simp only [Spec.resolve, toUtc?, Spec.times?, arrival?, Option.bind_some]
    cases hshows : shows m.instant <;> simp [hshows]

theorem resolve_exact_of_last_day :
    (Spec.date ⟨9999, 12, 31⟩).resolve ⟨0, none⟩ = .ok (some (midnight ⟨9999, 12, 31⟩)) ∧
      (midnight ⟨9999, 12, 31⟩).InUtc := by
  have hdate : ∀ d, Spec.date ⟨9999, 12, 31⟩ = .date d → d.isValid = true := by
    intro d hd
    cases hd
    decide
  exact ⟨rfl, ((resolve_exact hdate ⟨0, none⟩).2 _ rfl).2 _ rfl⟩

/-- An evening at the end of the year 9999, on a clock behind UTC. -/
theorem resolve_fails_of_last_evening :
    (Spec.moment (ofDate ⟨9999, 12, 31⟩ (23 * 3600 * second) (some (-18000)))).resolve
      ⟨0, some 0⟩ = .error {} := by
  decide

end DueDate

end TaskAutomation
