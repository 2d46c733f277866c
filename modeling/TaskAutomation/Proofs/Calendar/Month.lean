import TaskAutomation.Proofs.Calendar.Date

/-!
# Months of the calendar

The months are numbered through, from January of the year 0 on: the month `n` months later has the number
that is `n` more.

* `Date.monthIndex d`, `Date.monthStart t`, `Date.monthLength t` : the number of a date's month, the days
  before a month, and the days in it; `Date.monthStart_succ` : months follow one another without a gap;
* `Date.ofDays_toDays` : a date that exists leads to a day, and the day back to the date;
* `Date.toDays_addMonths_succ` : one month more is 28 days more at least, also where the day of the month
  has to give way; `Date.isValid_addMonths` : the months that can be added.
-/

namespace TaskAutomation.Date

variable {d e : Date} {s t n : Nat}

/-- The number of a date's month, counted from January of the year 0. -/
def monthIndex (d : Date) : Nat := d.year * 12 + (d.month - 1)

/-- The days in the month of a number. -/
def monthLength (t : Nat) : Nat := daysInMonth (t / 12) (t % 12 + 1)

/-- The days before the month of a number. -/
def monthStart (t : Nat) : Nat := daysBeforeYear (t / 12) + daysBeforeMonth (t / 12) (t % 12 + 1)

/-! ## One month after another -/

theorem monthLength_bounds (t : Nat) : 28 ≤ monthLength t ∧ monthLength t ≤ 31 := by
  have hall : ∀ leap, ∀ i < 12, 28 ≤ ((monthLengths leap)[i]?).getD 0 := by decide
  refine ⟨?_, daysInMonth_le _ _⟩
  rw [monthLength, daysInMonth, if_neg (Nat.succ_ne_zero _)]
  exact hall _ _ (Nat.mod_lt t (by decide))

theorem daysBeforeMonth_succ (year : Nat) {i : Nat} (h : i < 11) :
    daysBeforeMonth year (i + 2) = daysBeforeMonth year (i + 1) + daysInMonth year (i + 1) := by
  have hall : ∀ leap, ∀ i < 11, ((monthLengths leap).take (i + 1)).foldr (· + ·) 0 =
      ((monthLengths leap).take i).foldr (· + ·) 0 + ((monthLengths leap)[i]?).getD 0 := by decide
  rw [daysInMonth, if_neg (Nat.succ_ne_zero i)]
  exact hall (isLeap year) i h

/-- A year ends with December. -/
theorem daysBeforeMonth_december (year : Nat) :
    daysBeforeMonth year 12 + daysInMonth year 12 = yearLength year := by
  have hall : ∀ leap, ((monthLengths leap).take 11).foldr (· + ·) 0
      + ((monthLengths leap)[11]?).getD 0 = if leap then 366 else 365 := by decide
  rw [daysInMonth, if_neg (by decide)]
  exact hall (isLeap year)

/-- From the year 1 on, a month starts when the one before it is over. -/
theorem monthStart_succ (h : 12 ≤ t) : monthStart (t + 1) = monthStart t + monthLength t := by
  unfold monthStart monthLength
  by_cases hlast : t % 12 = 11
  · obtain ⟨y, hy⟩ : ∃ y, t / 12 = y + 1 := ⟨t / 12 - 1, by omega⟩
    have hyear : (t + 1) / 12 = y + 2 := by omega
    have hmonth : (t + 1) % 12 = 0 := by omega
    have hfirst : daysBeforeMonth (y + 2) (0 + 1) = 0 := rfl
    rw [hyear, hmonth, hlast, hy, daysBeforeYear_succ, hfirst, Nat.add_zero, Nat.add_assoc,
      daysBeforeMonth_december]
  · have hyear : (t + 1) / 12 = t / 12 := by omega
    have hmonth : (t + 1) % 12 = t % 12 + 1 := by omega
    rw [hyear, hmonth, daysBeforeMonth_succ _ (by omega), Nat.add_assoc]

theorem monthStart_mono (hs : 12 ≤ s) (h : s ≤ t) : monthStart s ≤ monthStart t := by
  induction h with
  | refl => exact Nat.le_refl _
  | @step t hle ih =>
    rw [monthStart_succ (Nat.le_trans hs hle)]
    exact Nat.le_trans ih (Nat.le_add_right _ _)

/-! ## Dates in their months -/

theorem monthIndex_div (h : d.isValid = true) : d.monthIndex / 12 = d.year := by
  obtain ⟨-, -, hm, hm', -⟩ := of_decide_eq_true h
  unfold monthIndex
  omega

theorem monthIndex_mod (h : d.isValid = true) : d.monthIndex % 12 + 1 = d.month := by
  obtain ⟨-, -, hm, hm', -⟩ := of_decide_eq_true h
  unfold monthIndex
  omega

theorem monthIndex_bounds (h : d.isValid = true) : 12 ≤ d.monthIndex ∧ d.monthIndex < 120000 := by
  obtain ⟨hy, hy', hm, hm', -⟩ := of_decide_eq_true h
  unfold monthIndex
  omega

theorem day_bounds (h : d.isValid = true) : 1 ≤ d.day ∧ d.day ≤ monthLength d.monthIndex := by
  rw [monthLength, monthIndex_div h, monthIndex_mod h]
  exact (of_decide_eq_true h).2.2.2.2

theorem toDays_eq (h : d.isValid = true) : d.toDays = monthStart d.monthIndex + (d.day - 1) := by
  rw [monthStart, monthIndex_div h, monthIndex_mod h, toDays]

theorem monthIndex_le (hd : d.isValid = true) (he : e.isValid = true) (h : d.toDays = e.toDays) :
    d.monthIndex ≤ e.monthIndex := by
  by_contra hlt
  have hindex := (monthIndex_bounds he).1
  have hend := monthStart_succ hindex
  have hnext : monthStart (e.monthIndex + 1) ≤ monthStart d.monthIndex :=
    monthStart_mono (by omega) (Nat.lt_of_not_le hlt)
  have hday := day_bounds he
  rw [toDays_eq hd, toDays_eq he] at h
  omega

/-- Dates that exist are told apart by their days. -/
theorem toDays_injective (hd : d.isValid = true) (he : e.isValid = true) (h : d.toDays = e.toDays) :
    d = e := by
  have hindex : d.monthIndex = e.monthIndex :=
    Nat.le_antisymm (monthIndex_le hd he h) (monthIndex_le he hd h.symm)
  have hyear : d.year = e.year := by rw [← monthIndex_div hd, hindex, monthIndex_div he]
  have hmonth : d.month = e.month := by rw [← monthIndex_mod hd, hindex, monthIndex_mod he]
  have hday : d.day = e.day := by
    have hd' := (day_bounds hd).1
    have he' := (day_bounds he).1
    rw [toDays_eq hd, toDays_eq he, hindex] at h
    omega
  obtain ⟨year, month, day⟩ := d
  cases hyear
  cases hmonth
  cases hday
  rfl

/-- The day of a date that exists leads back to it. -/
theorem ofDays_toDays (h : d.isValid = true) : ofDays d.toDays = d :=
  toDays_injective (isValid_ofDays (toDays_lt h)) h (toDays_ofDays d.toDays)

/-! ## Adding months -/

theorem addMonths_eq (d : Date) (n : Nat) : d.addMonths n =
    ⟨(d.monthIndex + n) / 12, (d.monthIndex + n) % 12 + 1, min d.day (monthLength (d.monthIndex + n))⟩ :=
  rfl

theorem addMonths_zero (h : d.isValid = true) : d.addMonths 0 = d := by
  rw [addMonths_eq, Nat.add_zero, monthIndex_div h, monthIndex_mod h, Nat.min_eq_left (day_bounds h).2]

/-- The month lies `n` months later. -/
theorem monthIndex_addMonths (d : Date) (n : Nat) : (d.addMonths n).monthIndex = d.monthIndex + n := by
  rw [addMonths_eq]
  show (d.monthIndex + n) / 12 * 12 + ((d.monthIndex + n) % 12 + 1 - 1) = d.monthIndex + n
  omega

/-- Months can be added up to the year 9999. -/
theorem isValid_addMonths (h : d.isValid = true) :
    (d.addMonths n).isValid = true ↔ d.monthIndex + n < 120000 := by
  have hindex := (monthIndex_bounds h).1
  have hday := (day_bounds h).1
  have hlength := (monthLength_bounds (d.monthIndex + n)).1
  have hmin : 1 ≤ min d.day (monthLength (d.monthIndex + n)) := by omega
  rw [addMonths_eq, isValid, decide_eq_true_eq]
  constructor
  · rintro ⟨-, hyear, -⟩
    dsimp only at hyear
    omega
  · intro hlast
    refine ⟨?_, ?_, ?_, ?_, hmin, Nat.min_le_right _ _⟩ <;> dsimp only <;> omega

theorem toDays_addMonths (d : Date) (n : Nat) : (d.addMonths n).toDays =
    monthStart (d.monthIndex + n) + (min d.day (monthLength (d.monthIndex + n)) - 1) := rfl

/-- One month more is 28 days more at least. -/
theorem toDays_addMonths_succ (h : d.isValid = true) (n : Nat) :
    (d.addMonths n).toDays + 28 ≤ (d.addMonths (n + 1)).toDays := by
  have hindex := (monthIndex_bounds h).1
  have hday := (day_bounds h).1
  have hlength := (monthLength_bounds (d.monthIndex + n)).1
  have hlength' := (monthLength_bounds (d.monthIndex + n + 1)).1
  have hnext := monthStart_succ (show 12 ≤ d.monthIndex + n by omega)
  rw [toDays_addMonths, toDays_addMonths, ← Nat.add_assoc, hnext]
  omega

theorem strictMono_toDays_addMonths (h : d.isValid = true) : StrictMono fun n => (d.addMonths n).toDays := by
  refine strictMono_nat_of_lt_succ fun n => ?_
  have := toDays_addMonths_succ h n
  omega

theorem toDays_addMonths_le (h : d.isValid = true) (n : Nat) :
    d.toDays + 28 * n ≤ (d.addMonths n).toDays := by
  induction n with
  | zero => rw [addMonths_zero h, Nat.mul_zero, Nat.add_zero]
  | succ n ih =>
    have := toDays_addMonths_succ h n
    omega

end TaskAutomation.Date
