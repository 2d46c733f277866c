import Mathlib.Order.Monotone.Basic
import TaskAutomation.Calendar.Date

/-!
# Days of the calendar

* `Date.yearOfDays_spec` : the year of a day begins no later than the day, and ends after it;
* `Date.toDays_ofDays` : a day leads to a date, and the date back to the day; `Date.isValid_ofDays` :
  that date exists;
* `Date.toDays_lt` : dates that exist lie within the calendar.
-/

namespace TaskAutomation.Date

/-! ## Years -/

/-- The length of a year. -/
def yearLength (year : Nat) : Nat := if isLeap year then 366 else 365

theorem isLeap_iff (year : Nat) :
    isLeap year = true ↔ year % 4 = 0 ∧ (year % 100 ≠ 0 ∨ year % 400 = 0) := by
  simp [isLeap]

theorem daysBeforeYear_eq (year : Nat) : daysBeforeYear year =
    365 * (year - 1) + (year - 1) / 4 - (year - 1) / 100 + (year - 1) / 400 := rfl

theorem daysBeforeYear_succ (y : Nat) :
    daysBeforeYear (y + 2) = daysBeforeYear (y + 1) + yearLength (y + 1) := by
  rw [daysBeforeYear_eq, daysBeforeYear_eq, yearLength]
  simp only [isLeap_iff, Nat.add_sub_cancel, show y + 2 - 1 = y + 1 from rfl]
  have hle : y / 100 ≤ y / 4 := Nat.div_le_div_left (by decide) (by decide)
  have h4 : (y + 1) / 4 = y / 4 + if (y + 1) % 4 = 0 then 1 else 0 := by split <;> omega
  have h100 : (y + 1) / 100 = y / 100 + if (y + 1) % 100 = 0 then 1 else 0 := by split <;> omega
  have h400 : (y + 1) / 400 = y / 400 + if (y + 1) % 400 = 0 then 1 else 0 := by split <;> omega
  rw [h4, h100, h400]
  by_cases m4 : (y + 1) % 4 = 0
  · by_cases m100 : (y + 1) % 100 = 0
    · by_cases m400 : (y + 1) % 400 = 0
      · rw [if_pos m4, if_pos m100, if_pos m400, if_pos ⟨m4, .inr m400⟩]
        omega
      · rw [if_pos m4, if_pos m100, if_neg m400, if_neg (by omega)]
        omega
    · rw [if_pos m4, if_neg m100, if_neg (by omega), if_pos ⟨m4, .inl m100⟩]
      omega
  · rw [if_neg m4, if_neg (by omega), if_neg (by omega), if_neg (fun h => m4 h.1)]
    omega

theorem daysBeforeYear_mono : Monotone daysBeforeYear := by
  apply monotone_nat_of_le_succ
  intro year
  cases year with
  | zero => decide
  | succ y =>
    rw [daysBeforeYear_succ y]
    exact Nat.le_add_right _ _

theorem le_daysBeforeYear (year : Nat) : 365 * (year - 1) ≤ daysBeforeYear year := by
  rw [daysBeforeYear_eq]
  omega

theorem daysBeforeYear_le (year : Nat) : daysBeforeYear year ≤ 366 * (year - 1) := by
  rw [daysBeforeYear_eq]
  omega

theorem exists_year (n : Nat) :
    ∃ y, 1 ≤ y ∧ daysBeforeYear y ≤ n ∧ n < daysBeforeYear (y + 1) := by
  induction n with
  | zero => exact ⟨1, by decide, by decide, by decide⟩
  | succ n ih =>
    obtain ⟨y, hy, hle, hlt⟩ := ih
    by_cases h : n + 1 < daysBeforeYear (y + 1)
    · exact ⟨y, hy, by omega, h⟩
    · refine ⟨y + 1, by omega, by omega, ?_⟩
      have hs : daysBeforeYear (y + 1 + 1) = daysBeforeYear (y + 1) + yearLength (y + 1) :=
        daysBeforeYear_succ y
      have hpos : 0 < yearLength (y + 1) := by
        unfold yearLength
        split <;> decide
      omega

/-- The last of consecutive numbers that are at most `y`. -/
theorem getLastD_filter_range' {a k y d : Nat} (ha : a ≤ y) (hy : y < a + k) (p : Nat → Bool)
    (hp : ∀ x, a ≤ x → (p x = true ↔ x ≤ y)) : ((List.range' a k).filter p).getLastD d = y := by
  have hsplit : List.range' a k = List.range' a (y + 1 - a) ++ List.range' (y + 1) (a + k - (y + 1)) := by
    have := @List.range'_append a (y + 1 - a) (a + k - (y + 1)) 1
    rw [show a + 1 * (y + 1 - a) = y + 1 by omega,
      show y + 1 - a + (a + k - (y + 1)) = k by omega] at this
    exact this.symm
  have hlow : (List.range' a (y + 1 - a)).filter p = List.range' a (y + 1 - a) := by
    rw [List.filter_eq_self]
    intro x hx
    rw [List.mem_range'_1] at hx
    exact (hp x hx.1).mpr (by omega)
  have hhigh : (List.range' (y + 1) (a + k - (y + 1))).filter p = [] := by
    rw [List.filter_eq_nil_iff]
    intro x hx h
    rw [List.mem_range'_1] at hx
    have := (hp x (by omega)).mp h
    omega
  rw [hsplit, List.filter_append, hlow, hhigh, List.append_nil,
    show y + 1 - a = (y - a) + 1 by omega, List.range'_concat]
  simp
  omega

theorem yearOfDays_spec (n : Nat) :
    1 ≤ yearOfDays n ∧ daysBeforeYear (yearOfDays n) ≤ n ∧ n < daysBeforeYear (yearOfDays n + 1) := by
  obtain ⟨y, hy, hle, hlt⟩ := exists_year n
  have hlow := le_daysBeforeYear y
  have hhigh := daysBeforeYear_le (y + 1)
  have h : yearOfDays n = y := by
    unfold yearOfDays
    apply getLastD_filter_range'
    · omega
    · omega
    · intro x hx
      rw [decide_eq_true_iff]
      constructor
      · intro h
        by_contra hxy
        have := daysBeforeYear_mono (show y + 1 ≤ x by omega)
        omega
      · intro h
        exact Nat.le_trans (daysBeforeYear_mono h) hle
  rw [h]
  exact ⟨hy, hle, hlt⟩

/-! ## Months -/

theorem monthDay_spec (month : Nat) (lengths : List Nat) (n : Nat)
    (h : n < lengths.foldr (· + ·) 0) :
    ∃ i d, monthDay month lengths n = (month + i, d + 1) ∧ (∃ l, lengths[i]? = some l ∧ d < l)
      ∧ n = (lengths.take i).foldr (· + ·) 0 + d := by
  induction lengths generalizing month n with
  | nil => simp at h
  | cons l ls ih =>
    by_cases hn : n < l
    · exact ⟨0, n, by simp [monthDay, hn], ⟨l, rfl, hn⟩, by simp⟩
    · rw [List.foldr_cons] at h
      obtain ⟨i, d, hmd, hl, hsum⟩ := ih (month + 1) (n - l) (by omega)
      refine ⟨i + 1, d, ?_, ?_, ?_⟩
      · rw [monthDay, if_neg hn, hmd]
        congr 1
        omega
      · simpa using hl
      · rw [List.take_succ_cons, List.foldr_cons]
        omega

theorem sum_monthLengths (leap : Bool) :
    (monthLengths leap).foldr (· + ·) 0 = if leap then 366 else 365 := by
  cases leap <;> rfl

theorem daysInMonth_le (year month : Nat) : daysInMonth year month ≤ 31 := by
  have hall : ∀ leap, ∀ l ∈ monthLengths leap, l ≤ 31 := by decide
  unfold daysInMonth
  split
  · exact Nat.zero_le _
  · cases h : (monthLengths (isLeap year))[month - 1]? with
    | none => exact Nat.zero_le _
    | some l => exact hall _ l (List.mem_of_getElem? h)

/-! ## Days of the calendar -/

/-- The date of a day lies in the year, has one of its months, and leads back to the day. -/
theorem ofDays_spec (n : Nat) :
    (ofDays n).year = yearOfDays n ∧ 1 ≤ (ofDays n).month ∧ (ofDays n).month ≤ 12
      ∧ 1 ≤ (ofDays n).day ∧ (ofDays n).day ≤ daysInMonth (ofDays n).year (ofDays n).month
      ∧ (ofDays n).toDays = n := by
  obtain ⟨hy, hle, hlt⟩ := yearOfDays_spec n
  have hrest : n - daysBeforeYear (yearOfDays n)
      < (monthLengths (isLeap (yearOfDays n))).foldr (· + ·) 0 := by
    obtain ⟨y, hy⟩ := Nat.exists_eq_add_of_le' hy
    rw [hy, daysBeforeYear_succ y, ← hy] at hlt
    rw [sum_monthLengths]
    unfold yearLength at hlt
    omega
  obtain ⟨i, d, hmd, ⟨l, hl, hd⟩, hsum⟩ := monthDay_spec 1 _ _ hrest
  have hi : i < 12 := by
    obtain ⟨hi, -⟩ := List.getElem?_eq_some_iff.mp hl
    simpa [monthLengths] using hi
  have hofs : ofDays n = ⟨yearOfDays n, 1 + i, d + 1⟩ := by
    unfold ofDays
    simp only [hmd]
  rw [hofs]
  refine ⟨rfl, by simp, by simp; omega, by simp, ?_, ?_⟩
  · simp only [daysInMonth, Nat.add_sub_cancel_left, hl, Option.getD_some]
    rw [if_neg (by omega)]
    omega
  · simp only [toDays, daysBeforeMonth, Nat.add_sub_cancel_left, Nat.add_sub_cancel]
    omega

theorem toDays_ofDays (n : Nat) : (ofDays n).toDays = n := (ofDays_spec n).2.2.2.2.2

theorem ofDays_injective {m n : Nat} (h : ofDays m = ofDays n) : m = n := by
  rw [← toDays_ofDays m, h, toDays_ofDays]

theorem isValid_ofDays {n : Nat} (h : n < dayLimit) : (ofDays n).isValid = true := by
  obtain ⟨hyear, hm, hm', hd, hd', -⟩ := ofDays_spec n
  obtain ⟨hy, hle, -⟩ := yearOfDays_spec n
  have hlate : yearOfDays n ≤ 9999 := by
    by_contra hc
    have := daysBeforeYear_mono (show 10000 ≤ yearOfDays n by omega)
    have hlimit : daysBeforeYear 10000 = dayLimit := by decide
    omega
  simp only [isValid, decide_eq_true_eq]
  rw [hyear] at hd' ⊢
  exact ⟨hy, hlate, hm, hm', hd, hd'⟩

theorem daysBeforeMonth_add_le {year month : Nat} (h : 1 ≤ month) (h' : month ≤ 12) :
    daysBeforeMonth year month + daysInMonth year month ≤ yearLength year := by
  have hall : ∀ leap, ∀ i < 12, ((monthLengths leap).take i).foldr (· + ·) 0
      + ((monthLengths leap)[i]?).getD 0 ≤ if leap then 366 else 365 := by decide
  rw [daysInMonth, if_neg (by omega)]
  exact hall (isLeap year) (month - 1) (by omega)

/-- Dates that exist lie within the calendar. -/
theorem toDays_lt {d : Date} (h : d.isValid = true) : d.toDays < dayLimit := by
  obtain ⟨hy, hy', hm, hm', hd, hd'⟩ := of_decide_eq_true h
  have hmonth : daysBeforeMonth d.year d.month + daysInMonth d.year d.month ≤ yearLength d.year :=
    daysBeforeMonth_add_le hm hm'
  obtain ⟨y, hyear⟩ := Nat.exists_eq_add_of_le' hy
  have hnext := daysBeforeYear_succ y
  have hlast : daysBeforeYear (y + 2) ≤ dayLimit :=
    Nat.le_trans (daysBeforeYear_mono (show y + 2 ≤ 10000 by omega)) (by decide)
  rw [hyear] at hmonth hd'
  rw [toDays, hyear]
  omega

end TaskAutomation.Date
