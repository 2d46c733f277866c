import TaskAutomation.Proofs.Calendar.Stamp
import TaskAutomation.Store.Inbox

/-!
# Minutes of a clock

* `Moment.minutes` : the minute in which a clock shows a moment, counted from the start of year 1;
* `Inbox.minute_eq_iff` : the text of a minute tells it from all other minutes that a clock can show.
-/

namespace TaskAutomation

namespace Moment

/-- The minutes that the clock shows, since the start of year 1. -/
def minutes (m : Moment) : Int := m.wall / (60 * second)

/-- A number of fixed width is split off the front of a text in one way only. -/
theorem digits_append_inj {width m n : Nat} {rest rest' : String} (hw : 0 < width)
    (hm : m < 10 ^ width) (hn : n < 10 ^ width) (h : digits width m ++ rest = digits width n ++ rest') :
    m = n ∧ rest = rest' := by
  have hlist := congrArg String.toList h
  rw [String.toList_append, String.toList_append] at hlist
  have hlength : (digits width m).toList.length = (digits width n).toList.length := by
    rw [length_digits hw hm, length_digits hw hn]
  obtain ⟨hdigits, hrest⟩ := List.append_inj hlist hlength
  exact ⟨digits_injective (String.toList_inj.mp hdigits), String.toList_inj.mp hrest⟩

/-- The fields of a date that exists fit the digits they are written in. -/
theorem Shown.date_lt {m : Moment} (h : m.Shown) :
    m.date.year < 10 ^ 4 ∧ m.date.month < 10 ^ 2 ∧ m.date.day < 10 ^ 2 := by
  obtain ⟨-, hyear, -, hmonth, -, hday⟩ := of_decide_eq_true (Date.isValid_ofDays h.days_lt)
  have hlength := Date.daysInMonth_le m.date.year m.date.month
  refine ⟨Nat.lt_of_le_of_lt hyear (by decide), Nat.lt_of_le_of_lt hmonth (by decide), ?_⟩
  exact Nat.lt_of_le_of_lt (hday.trans hlength) (by decide)

/-- A minute is a day with the minutes of that day. -/
theorem minutes_eq (m : Moment) :
    m.minutes = m.wall / day * 1440 + m.timeOfDay / (60 * second) := by
  unfold minutes timeOfDay day second
  omega

end Moment

namespace Inbox

/-- The minutes of a day that a moment is after midnight. -/
def minuteOfDay (m : Moment) : Nat := (m.timeOfDay / (60 * Moment.second)).toNat

theorem minuteOfDay_lt (m : Moment) : minuteOfDay m < 1440 := by
  unfold minuteOfDay Moment.timeOfDay Moment.day Moment.second
  omega

/-- The text of a minute tells what is written into it. -/
theorem fields_of_minute_eq {x y : Moment} (hx : x.Shown) (hy : y.Shown)
    (h : minute x = minute y) : x.date = y.date ∧ minuteOfDay x = minuteOfDay y := by
  obtain ⟨hxyear, hxmonth, hxday⟩ := hx.date_lt
  obtain ⟨hyyear, hymonth, hyday⟩ := hy.date_lt
  have hxtime := minuteOfDay_lt x
  have hytime := minuteOfDay_lt y
  have htext (m : Moment) : minute m = Moment.digits 4 m.date.year ++ (Moment.digits 2 m.date.month
      ++ (Moment.digits 2 m.date.day ++ (Moment.digits 2 (minuteOfDay m / 60)
      ++ Moment.digits 2 (minuteOfDay m % 60)))) := by
    simp only [minute, minuteOfDay, String.append_assoc]
  rw [htext, htext] at h
  obtain ⟨hyear, h⟩ := Moment.digits_append_inj (by decide) hxyear hyyear h
  obtain ⟨hmonth, h⟩ := Moment.digits_append_inj (by decide) hxmonth hymonth h
  obtain ⟨hday, h⟩ := Moment.digits_append_inj (by decide) hxday hyday h
  obtain ⟨hhours, h⟩ := Moment.digits_append_inj (by decide) (by omega) (by omega) h
  have hminutes := Moment.digits_injective h
  refine ⟨?_, by omega⟩
  cases hxdate : x.date
  cases hydate : y.date
  rw [hxdate, hydate] at hyear hmonth hday
  exact congr (congr (congrArg Date.mk hyear) hmonth) hday

/-- The text of a minute tells it from all others. -/
theorem minute_eq_iff {x y : Moment} (hx : x.Shown) (hy : y.Shown) :
    minute x = minute y ↔ x.minutes = y.minutes := by
  obtain ⟨hxlow, -⟩ := hx.bounds
  obtain ⟨hylow, -⟩ := hy.bounds
  have hxsplit := x.minutes_eq
  have hysplit := y.minutes_eq
  have hxtime := minuteOfDay_lt x
  have hytime := minuteOfDay_lt y
  constructor
  · intro h
    obtain ⟨hdate, htime⟩ := fields_of_minute_eq hx hy h
    have hday := Date.ofDays_injective hdate
    unfold minuteOfDay Moment.timeOfDay Moment.day Moment.second at *
    omega
  · intro h
    have hday : x.wall / Moment.day = y.wall / Moment.day := by
      unfold Moment.minutes Moment.day Moment.second at *
      omega
    have htime : x.timeOfDay / (60 * Moment.second) = y.timeOfDay / (60 * Moment.second) := by
      rw [hday] at hxsplit
      omega
    unfold minute Moment.date
    rw [hday, htime]

end Inbox

end TaskAutomation
