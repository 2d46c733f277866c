import TaskAutomation.Calendar.Iso
import TaskAutomation.Proofs.Calendar.Stamp

/-!
# ISO texts of moments

* `Iso.calendarDate?_dateText`, `Iso.time?_timeText` : date and time of day are read back;
* `Iso.read?_iso` : so is a moment in UTC, to the microsecond;
* `Iso.read?_of_head` : a text that starts with something else than a digit is none of these.
-/

namespace TaskAutomation

namespace Iso

open Moment

/-! ## Fields -/

theorem field?_digits {width n : Nat} (hw : 0 < width) (h : n < 10 ^ width) :
    field? (digits width n).toList = some n := by
  have hfilled : (digits width n).toList.isEmpty = false := by
    rw [List.isEmpty_eq_false_iff, ← List.length_pos_iff, length_digits hw h]
    exact hw
  have hdigits : (digits width n).toList.all Char.isDigit = true :=
    List.all_eq_true.mpr fun c => isDigit_of_mem_digits
  rw [field?, hfilled, hdigits, if_neg (by decide), ofDigits_digits]

/-- A field that starts with something else than a digit is none. -/
theorem field?_of_head {c : Char} {rest : List Char} {width : Nat} (h : c.isDigit = false) :
    field? ((c :: rest).take (width + 1)) = none := by
  rw [List.take_succ_cons, field?, List.all_cons, h, if_pos (by simp)]

/-- A text that starts with something else than a digit is no date. -/
theorem read?_of_head {s : String} {c : Char} {rest : List Char} (hs : s.toList = c :: rest)
    (h : c.isDigit = false) : read? s = none := by
  have hcalendar : calendarDate? s.toList = none := by
    rw [hs, calendarDate?, field?_of_head h]
    split <;> rfl
  have hordinal : ordinalDate? s.toList = none := by
    rw [hs, ordinalDate?, field?_of_head h]
    split <;> rfl
  rw [read?, hcalendar, hordinal]
  split <;> rfl

/-! ## Dates -/

theorem calendarDate?_dateText {d : Date} (hd : d.isValid = true) (rest : List Char) :
    calendarDate? ((dateText d).toList ++ rest) = some (.ofDate d, rest) := by
  obtain ⟨-, hy, -, hm, -, hday⟩ := of_decide_eq_true hd
  have hlen := Date.daysInMonth_le d.year d.month
  have hyear : d.year < 10 ^ 4 := by omega
  have hmonth : d.month < 10 ^ 2 := by omega
  have hdays : d.day < 10 ^ 2 := by omega
  have htext : (dateText d).toList ++ rest = (digits 4 d.year).toList ++
      ('-' :: ((digits 2 d.month).toList ++ ('-' :: ((digits 2 d.day).toList ++ rest)))) := by
    simp [dateText]
  have h4 := length_digits (by decide) hyear
  have h2 := length_digits (by decide) hmonth
  have h2' := length_digits (by decide) hdays
  rw [htext, calendarDate?]
  simp only [List.length_append, List.length_cons, h4, h2, h2', add_lt_iff_neg_left, not_lt_zero,
    ↓reduceIte, List.take_left', List.drop_left', field?_digits (show 0 < 4 by decide) hyear,
    field?_digits (show 0 < 2 by decide) hmonth, field?_digits (show 0 < 2 by decide) hdays,
    List.isEmpty_cons, List.head?_cons, List.drop_succ_cons, List.drop_zero, BEq.rfl, bne_self_eq_false,
    Bool.false_eq_true, Bool.and_false, Option.pure_def, Option.bind_eq_bind, Option.bind_some, Fields.ofDate]

/-! ## Times of day -/

variable {steps index n : Nat} {colons : Bool} {c : Clock}

theorem isDigit_head_digits {width n : Nat} (hw : 0 < width) (h : n < 10 ^ width) :
    ∃ x rest, (digits width n).toList = x :: rest ∧ x.isDigit = true := by
  cases hds : (digits width n).toList with
  | nil =>
    have hlen := length_digits hw h
    rw [hds] at hlen
    exact absurd hlen (Nat.ne_of_lt hw)
  | cons x rest => exact ⟨x, rest, rfl, isDigit_of_mem_digits (hds ▸ List.mem_cons_self)⟩

/-- The hour comes first. -/
theorem timeFields?_hour (h : n < 10 ^ 2) (rest : List Char) :
    timeFields? (steps + 1) 0 false c ((digits 2 n).toList ++ rest) =
      timeFields? steps 1 false (c.set 0 n) rest := by
  obtain ⟨x, tail, hds, hx⟩ := isDigit_head_digits (show 0 < 2 by decide) h
  have hfield := take_digits (show 0 < 2 by decide) h rest
  have hdrop := drop_digits (show 0 < 2 by decide) h rest
  have hplain : (x == '-' || x == '+' || x == 'Z' || x == 'z') = false := by
    simp only [Bool.or_eq_false_iff, beq_eq_false_iff_ne]
    refine ⟨⟨⟨?_, ?_⟩, ?_⟩, ?_⟩ <;> rintro rfl <;> exact absurd hx (by decide)
  have htail : (digits 2 n).toList ++ rest = x :: (tail ++ rest) := by rw [hds, List.cons_append]
  rw [htail] at hfield hdrop ⊢
  rw [timeFields?, hplain]
  simp [-List.take_succ_cons, hfield, hdrop, field?_digits (show 0 < 2 by decide) h]

/-- Minutes and seconds come behind colons. -/
theorem timeFields?_colon (hindex : index = 1 ∨ index = 2 ∧ colons = true) (h : n < 10 ^ 2)
    (rest : List Char) : timeFields? (steps + 1) index colons c (':' :: ((digits 2 n).toList ++ rest)) =
      timeFields? steps (index + 1) true (c.set index n) rest := by
  have hfield := take_digits (show 0 < 2 by decide) h rest
  have hdrop := drop_digits (show 0 < 2 by decide) h rest
  rw [timeFields?]
  rcases hindex with rfl | ⟨rfl, rfl⟩ <;>
    simp [hfield, hdrop, field?_digits (show 0 < 2 by decide) h]

/-- The offset of UTC ends the time. -/
theorem timeFields?_utc : timeFields? (steps + 1) index colons c (signedOffset 0).toList =
    some { c with offset := some 0 } := by
  have htext : (signedOffset 0).toList = ['+', '0', '0', ':', '0', '0'] := rfl
  have hoffset : offset? ['+', '0', '0', ':', '0', '0'] = some 0 := rfl
  rw [htext, timeFields?, if_pos (by decide), hoffset]
  rfl

theorem fraction?_digits (h : n < 10 ^ 6) {rest : List Char}
    (hrest : ∀ x ∈ rest.head?, x.isDigit = false) :
    fraction? ('.' :: ((digits 6 n).toList ++ rest)) = some (n, 7) := by
  have hds := length_filterMap_digits (show 0 < 6 by decide) h
  have hne : ((digits 6 n).toList.filterMap Text.asciiDigit?).isEmpty = false := by
    rw [List.isEmpty_eq_false_iff, ← List.length_pos_iff, hds]
    decide
  simp only [fraction?, takeWhile_digits 6 n hrest, List.take_of_length_le (Nat.le_of_eq hds), hds, hne,
    ofDigits_digits]
  simp

/-- The fraction and the offset of UTC end the time. -/
theorem timeFields?_fraction (hc : c.micro = 0) (h : n < 10 ^ 6) :
    timeFields? (steps + 2) 3 colons c ((fractionText n).toList ++ (signedOffset 0).toList) =
      some { c with micro := n, offset := some 0 } := by
  rw [fractionText]
  split
  · next hz =>
    rw [hz, ← hc]
    exact timeFields?_utc
  · have hhalts : ∀ x ∈ (signedOffset 0).toList.head?, x.isDigit = false := by
      intro x hx
      have hplus : (signedOffset 0).toList.head? = some '+' := rfl
      cases hplus.symm.trans hx
      rfl
    have hread := fraction?_digits h hhalts
    have hdrop := drop_digits (show 0 < 6 by decide) h (signedOffset 0).toList
    have htext : ("." ++ digits 6 n).toList ++ (signedOffset 0).toList =
        '.' :: ((digits 6 n).toList ++ (signedOffset 0).toList) := by simp
    rw [htext, timeFields?, if_neg (by decide), if_pos rfl, hread]
    dsimp only
    rw [List.drop_succ_cons, hdrop, timeFields?_utc]

/-- The clock that shows a time of day in UTC. -/
def clock (t : Nat) : Clock where
  hour := t / 1000000 / 3600
  minute := t / 1000000 / 60 % 60
  second := t / 1000000 % 60
  micro := t % 1000000
  offset := some 0

theorem time?_timeText {t : Nat} (ht : t < 86400000000) :
    time? ((timeText t).toList ++ (signedOffset 0).toList) = some (clock t) := by
  have hhour : t / 1000000 / 3600 < 10 ^ 2 := by omega
  have hminute : t / 1000000 / 60 % 60 < 10 ^ 2 := by omega
  have hsecond : t / 1000000 % 60 < 10 ^ 2 := by omega
  have hfraction : t % 1000000 < 10 ^ 6 := by omega
  have htext : (timeText t).toList ++ (signedOffset 0).toList = (digits 2 (t / 1000000 / 3600)).toList
      ++ (':' :: ((digits 2 (t / 1000000 / 60 % 60)).toList
      ++ (':' :: ((digits 2 (t / 1000000 % 60)).toList
      ++ ((fractionText (t % 1000000)).toList ++ (signedOffset 0).toList))))) := by
    simp [timeText]
  have hlen := length_digits (show 0 < 2 by decide) hhour
  have hfields : timeFields? 6 0 false {} ((timeText t).toList ++ (signedOffset 0).toList) =
      some (clock t) := by
    rw [htext, timeFields?_hour hhour, timeFields?_colon (.inl rfl) hminute,
      timeFields?_colon (.inr ⟨rfl, rfl⟩) hsecond]
    exact timeFields?_fraction rfl hfraction
  have hsize : ¬ ((timeText t).toList ++ (signedOffset 0).toList).length < 2 := by
    rw [htext, List.length_append, hlen]
    omega
  have hday : (clock t).hour ≠ 24 := by
    rw [clock]
    dsimp only
    omega
  rw [time?, if_neg hsize, hfields]
  simp [hday]

/-! ## Moments -/

/-- Before hour 24, the moment is on the date. -/
theorem moment?_of_lt {d : Date} {c : Clock} (hd : d.isValid = true) (hhour : c.hour < 24)
    (hminute : c.minute < 60) (hsecond : c.second < 60) : moment? (.ofDate d) c =
      some (ofDate d
        (((c.hour * 60 + c.minute) * 60 + c.second : Nat) * second + (c.micro : Nat)) c.offset) := by
  have hdate : (⟨(Fields.ofDate d).year, (Fields.ofDate d).month, (Fields.ofDate d).day⟩ : Date) = d :=
    rfl
  have hearly : c.hour ≠ 24 := Nat.ne_of_lt hhour
  have hbounds : (decide (23 < c.hour) || decide (59 < c.minute) || decide (59 < c.second)) = false := by
    rw [Bool.or_eq_false_iff, Bool.or_eq_false_iff, decide_eq_false_iff_not, decide_eq_false_iff_not,
      decide_eq_false_iff_not]
    omega
  simp [moment?, hdate, hd, hearly, hbounds]

section
variable {m : Moment} (h : m.Shown) (hutc : m.offset = some 0)
include h hutc

theorem moment?_clock : moment? (.ofDate m.date) (clock m.timeOfDay.toNat) = some m := by
  have hvalid : m.date.isValid = true := Date.isValid_ofDays h.days_lt
  have htime : m.timeOfDay.toNat < 86400000000 := by
    unfold timeOfDay day second
    omega
  have hnonneg : ((m.timeOfDay.toNat : Nat) : Int) = m.timeOfDay := by
    unfold timeOfDay day second
    omega
  generalize m.timeOfDay.toNat = t at htime hnonneg ⊢
  have hsum : (((t / 1000000 / 3600 * 60 + t / 1000000 / 60 % 60) * 60 + t / 1000000 % 60 : Nat) : Int)
      * second + (t % 1000000 : Nat) = m.timeOfDay := by
    rw [← hnonneg]
    unfold second
    omega
  have hwhole : ofDate m.date m.timeOfDay (some 0) = m := by
    rw [ofDate_date h]
    exact congrArg (Moment.mk m.wall) hutc.symm
  have hclock := moment?_of_lt hvalid (show (clock t).hour < 24 from ?_) (show (clock t).minute < 60 from ?_)
    (show (clock t).second < 60 from ?_)
  · simp only [clock] at hclock ⊢
    rw [hclock, hsum, hwhole]
  all_goals
    rw [clock]
    dsimp only
    omega

end

theorem toList_iso {m : Moment} (hutc : m.offset = some 0) : m.iso.toList = (dateText m.date).toList ++
    ('T' :: ((timeText m.timeOfDay.toNat).toList ++ (signedOffset 0).toList)) := by
  rw [iso, hutc, wallText_eq]
  simp

/-- The text of a moment is in ASCII. -/
theorem ascii_iso {m : Moment} (hutc : m.offset = some 0) :
    m.iso.toList.all (fun c => decide (c.toNat < 128)) = true := by
  have hdigits : ∀ width n, (digits width n).toList.all (fun c => decide (c.toNat < 128)) = true := by
    intro width n
    rw [List.all_eq_true]
    intro c hc
    have := (Text.toNat_of_isDigit (isDigit_of_mem_digits hc)).2
    exact decide_eq_true (by omega)
  have hoffset : (signedOffset 0).toList.all (fun c => decide (c.toNat < 128)) = true := by decide
  have hfraction : ∀ n, (fractionText n).toList.all (fun c => decide (c.toNat < 128)) = true := by
    intro n
    rw [fractionText]
    split
    · rfl
    · rw [String.toList_append, List.all_append, hdigits]
      rfl
  rw [toList_iso hutc, dateText, timeText]
  simp only [String.toList_append, List.all_append, List.all_cons, hdigits, hoffset, hfraction]
  decide

/-- A moment in UTC is read back from its text. -/
theorem read?_iso {m : Moment} (h : m.Shown) (hutc : m.offset = some 0) : read? m.iso = some m := by
  have hvalid : m.date.isValid = true := Date.isValid_ofDays h.days_lt
  have htime : m.timeOfDay.toNat < 86400000000 := by
    unfold timeOfDay day second
    omega
  rw [read?]
  simp only [ascii_iso hutc]
  rw [toList_iso hutc, calendarDate?_dateText hvalid]
  simp [time?_timeText htime, moment?_clock h hutc]

end Iso

end TaskAutomation
