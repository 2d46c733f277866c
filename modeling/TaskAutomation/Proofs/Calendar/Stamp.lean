import Mathlib.Data.String.Basic
import TaskAutomation.Calendar.Stamp
import TaskAutomation.Proofs.Calendar.Date
import TaskAutomation.Proofs.Text.Digit

/-!
# Stamps

* `Moment.digits?_digits`, `Moment.drop_digits` : a number in digits is read back, with the rest of
  the text after it;
* `Moment.Shown` : the moments that a clock can show; `Moment.toMinute` rounds the offset of one;
* `Moment.ofText_stamp` : a stamp is read back as its moment, the offset to the minute;
  `Moment.ofText_iso` : in UTC so is the text in full;
* `Moment.Stamped` : the moments that their stamps say all of; `Stamp.stamped_of_ofText`,
  `Stamp.stamped_of_ofInt`, `Stamp.stamped_of_ofFloat` : whatever is read as a moment is such.
-/

namespace TaskAutomation

/-! ## Digits -/

theorem length_le_utf8ByteSize (s : String) : s.toList.length ≤ s.utf8ByteSize := by
  rw [← String.utf8Len_toList]
  induction s.toList with
  | nil => exact Nat.zero_le _
  | cons c cs ih =>
    rw [String.utf8Len_cons, List.length_cons]
    have := Char.utf8Size_pos c
    omega

theorem filterMap_asciiDigit? {cs : List Char} (h : ∀ c ∈ cs, c.isDigit = true) :
    cs.filterMap Text.asciiDigit? = cs.map fun c => c.toNat - '0'.toNat := by
  rw [← List.filterMap_eq_map]
  apply List.filterMap_congr
  intro c hc
  simp [Text.asciiDigit?, h c hc]

theorem ofDigits_filterMap {cs : List Char} (h : ∀ c ∈ cs, c.isDigit = true) :
    Decimal.ofDigits (cs.filterMap Text.asciiDigit?) = Nat.ofDigitChars 10 cs 0 := by
  rw [filterMap_asciiDigit? h, Decimal.ofDigits, List.foldl_map, Nat.ofDigitChars_eq_foldl]

namespace Moment

theorem toList_digits (width n : Nat) : (digits width n).toList =
    List.replicate (width - (Nat.toDigits 10 n).length) '0' ++ Nat.toDigits 10 n := by
  simp [digits, Decimal.zeroFill, Nat.repr_eq_ofList_toDigits]

theorem isDigit_of_mem_digits {width n : Nat} {c : Char} (h : c ∈ (digits width n).toList) :
    c.isDigit = true := by
  rw [toList_digits, List.mem_append] at h
  rcases h with h | h
  · rw [List.eq_of_mem_replicate h]
    rfl
  · exact Nat.isDigit_of_mem_toDigits (by decide) (by decide) h

theorem length_digits {width n : Nat} (hw : 0 < width) (h : n < 10 ^ width) :
    (digits width n).toList.length = width := by
  have := (Nat.length_toDigits_le_iff (b := 10) (by decide) hw).mpr h
  rw [toList_digits, List.length_append, List.length_replicate]
  omega

theorem length_filterMap_digits {width n : Nat} (hw : 0 < width) (h : n < 10 ^ width) :
    ((digits width n).toList.filterMap Text.asciiDigit?).length = width := by
  rw [filterMap_asciiDigit? fun c => isDigit_of_mem_digits, List.length_map, length_digits hw h]

/-- The digits at the front of a text end with what is no digit. -/
theorem takeWhile_digits (width n : Nat) {rest : List Char}
    (hrest : ∀ c ∈ rest.head?, c.isDigit = false) :
    ((digits width n).toList ++ rest).takeWhile Char.isDigit = (digits width n).toList := by
  have htail : rest.takeWhile Char.isDigit = [] := by
    cases rest with
    | nil => rfl
    | cons c cs => rw [List.takeWhile_cons, hrest c rfl, if_neg Bool.false_ne_true]
  rw [List.takeWhile_append_of_pos fun c => isDigit_of_mem_digits, htail, List.append_nil]

theorem ofDigits_digits (width n : Nat) :
    Decimal.ofDigits ((digits width n).toList.filterMap Text.asciiDigit?) = n := by
  rw [ofDigits_filterMap fun c => isDigit_of_mem_digits, toList_digits, Nat.ofDigitChars_append,
    Nat.ofDigitChars_replicate_zero, Nat.mul_zero, Nat.ofDigitChars_ten_toDigits]

theorem digits_injective {width m n : Nat} (h : digits width m = digits width n) : m = n := by
  rw [← ofDigits_digits width m, h, ofDigits_digits]

/-! ## Reading back what is written -/

theorem take_digits {width n : Nat} (hw : 0 < width) (h : n < 10 ^ width) (rest : List Char) :
    ((digits width n).toList ++ rest).take width = (digits width n).toList :=
  List.take_left' (length_digits hw h)

theorem digits?_digits {width n : Nat} (hw : 0 < width) (h : n < 10 ^ width) (rest : List Char) :
    Stamp.digits? width ((digits width n).toList ++ rest) = some n := by
  rw [Stamp.digits?, take_digits hw h rest]
  simp only [length_filterMap_digits hw h, if_true, ofDigits_digits]

theorem drop_digits {width n : Nat} (hw : 0 < width) (h : n < 10 ^ width) (rest : List Char) :
    ((digits width n).toList ++ rest).drop width = rest := by
  rw [List.drop_append_of_le_length (by rw [length_digits hw h]),
    List.drop_of_length_le (by rw [length_digits hw h]), List.nil_append]

theorem dateAt_dateText {d : Date} (hd : d.isValid = true) {size : Nat} (hsize : 10 ≤ size)
    (rest : List Char) : Stamp.dateAt size ((dateText d).toList ++ rest) = .ok (d, rest) := by
  obtain ⟨-, hy, hm, hm', hday, hday'⟩ := of_decide_eq_true hd
  have hlen := Date.daysInMonth_le d.year d.month
  have hyear : d.year < 10 ^ 4 := by omega
  have hmonth : d.month < 10 ^ 2 := by omega
  have hdays : d.day < 10 ^ 2 := by omega
  have htext : (dateText d).toList ++ rest = (digits 4 d.year).toList ++
      ('-' :: ((digits 2 d.month).toList ++ ('-' :: ((digits 2 d.day).toList ++ rest)))) := by
    simp [dateText]
  have hsize' : ¬ size < 10 := by omega
  have hmonth' : (decide (d.month < 1) || decide (12 < d.month)) = false := by
    simp
    omega
  have hday'' : (decide (d.day < 1) || decide (Date.daysInMonth d.year d.month < d.day)) = false := by
    simp
    omega
  rw [htext, Stamp.dateAt]
  simp only [digits?_digits (by decide) hyear, drop_digits (by decide) hyear,
    digits?_digits (by decide) hmonth, drop_digits (by decide) hmonth,
    digits?_digits (by decide) hdays, drop_digits (by decide) hdays, List.head?_cons, List.drop_one,
    List.tail_cons, bne_self_eq_false, Bool.false_eq_true, if_false, hsize', hmonth', hday'']
  rfl

/-! ## Times of day and offsets -/

/-- The offset to the minute, rounded to zero. -/
def minutesOf (o : Int) : Int := Decimal.signed (decide (o < 0)) (o.natAbs / 60 * 60)

/-- The text of an offset in a stamp. -/
def stampOffset : Option Int → String
  | none => ""
  | some o => if o = 0 then "Z" else minuteOffset o

theorem stamp_eq (m : Moment) : m.stamp = m.wallText ++ stampOffset m.offset := by
  unfold stamp stampOffset
  cases m.offset <;> rfl

/-- The text does not continue the number before it. -/
def Halts (tail : List Char) : Prop := ∀ c ∈ tail.head?, c.isDigit = false ∧ c ≠ '.' ∧ c ≠ ','

theorem halts_stampOffset (o : Option Int) : Halts (stampOffset o).toList := by
  unfold Halts
  cases o with
  | none => simp [stampOffset]
  | some o =>
    rw [stampOffset]
    split
    · have hhead : "Z".toList.head? = some 'Z' := rfl
      rw [hhead]
      rintro c ⟨⟩
      exact ⟨rfl, by decide, by decide⟩
    · rw [minuteOffset, offsetSign]
      split <;> simp

theorem offset?_signed {sign : Char} (hs : sign = '+' ∨ sign = '-') {h m : Nat} (hh : h < 24)
    (hm : m < 60) :
    Stamp.offset? (sign :: ((digits 2 h).toList ++ (':' :: (digits 2 m).toList)))
      = some (some (Decimal.signed (sign == '-') (h * 3600 + m * 60))) := by
  have hhour : h < 10 ^ 2 := by omega
  have hread : Stamp.digits? 2 (digits 2 m).toList = some m := by
    simpa using digits?_digits (show 0 < 2 by decide) (show m < 10 ^ 2 by omega) []
  have hlen := length_digits (show 0 < 2 by decide) (show m < 10 ^ 2 by omega)
  have hbound : ¬ (60 ≤ m ∨ 24 ≤ h) := by omega
  -- the patterns of a lone letter do not apply, since digits follow the sign
  rw [Stamp.offset?.eq_4 _ _ (by simp) (by simp)]
  rcases hs with rfl | rfl <;>
    simp [digits?_digits (by decide) hhour, drop_digits (by decide) hhour, hread, hlen, hbound]

theorem offset?_stampOffset {o : Option Int} (h : ∀ a ∈ o, a.natAbs < 86400) :
    Stamp.offset? (stampOffset o).toList = some (o.map minutesOf) := by
  cases o with
  | none => rfl
  | some o =>
    have ho : o.natAbs < 86400 := h o rfl
    by_cases hz : o = 0
    · subst hz
      rfl
    have hsum : o.natAbs / 3600 * 3600 + o.natAbs / 60 % 60 * 60 = o.natAbs / 60 * 60 := by omega
    have hread (sign : Char) (hs : sign = '+' ∨ sign = '-') :=
      offset?_signed hs (show o.natAbs / 3600 < 24 by omega) (show o.natAbs / 60 % 60 < 60 by omega)
    rw [stampOffset, if_neg hz, minuteOffset, offsetSign, Option.map_some, minutesOf]
    by_cases hneg : o < 0
    · have := hread '-' (.inr rfl)
      rw [hsum] at this
      simpa [hneg] using this
    · have := hread '+' (.inl rfl)
      rw [hsum] at this
      simpa [hneg] using this

theorem fraction?_digits {n : Nat} (h : n < 10 ^ 6) {rest : List Char}
    (hrest : ∀ c ∈ rest.head?, c.isDigit = false) :
    Stamp.fraction? ('.' :: ((digits 6 n).toList ++ rest)) = some ((n : Int), rest) := by
  have hdigit : ∀ c ∈ (digits 6 n).toList, c.isDigit = true := fun c => isDigit_of_mem_digits
  have hdrop : ((digits 6 n).toList ++ rest).dropWhile Char.isDigit = rest := by
    rw [List.dropWhile_append_of_pos hdigit, Text.dropWhile_of_head hrest]
  have hds := length_filterMap_digits (show 0 < 6 by decide) h
  have hne : ((digits 6 n).toList.filterMap Text.asciiDigit?).isEmpty = false := by
    rw [List.isEmpty_eq_false_iff, ← List.length_pos_iff, hds]
    decide
  simp only [Stamp.fraction?, takeWhile_digits 6 n hrest, hdrop,
    List.take_of_length_le (Nat.le_of_eq hds), hds, hne, ofDigits_digits]
  simp

theorem fraction?_rest {rest : List Char} (hrest : ∀ c ∈ rest.head?, c ≠ '.' ∧ c ≠ ',') :
    Stamp.fraction? rest = some (0, rest) := by
  cases rest with
  | nil => rfl
  | cons c cs =>
    have := hrest c rfl
    simp [Stamp.fraction?, this.1, this.2]

/-- The text of the microseconds of a second. -/
def fractionText (n : Nat) : String := if n = 0 then "" else "." ++ digits 6 n

/-- The text of a time of day. -/
def timeText (t : Nat) : String :=
  digits 2 (t / 1000000 / 3600) ++ ":" ++ digits 2 (t / 1000000 / 60 % 60) ++ ":"
    ++ digits 2 (t / 1000000 % 60) ++ fractionText (t % 1000000)

theorem wallText_eq (m : Moment) :
    m.wallText = dateText m.date ++ "T" ++ timeText m.timeOfDay.toNat := by
  simp [wallText, timeText, fractionText, String.append_assoc]

theorem fraction?_fractionText {n : Nat} (hn : n < 10 ^ 6) {tail : List Char} (htail : Halts tail) :
    Stamp.fraction? ((fractionText n).toList ++ tail) = some ((n : Int), tail) := by
  rw [fractionText]
  split
  · next hz =>
    rw [hz]
    exact fraction?_rest fun c hc => (htail c hc).2
  · have := fraction?_digits hn fun c hc => (htail c hc).1
    simpa using this

/-- A time of day is read up to its offset. -/
theorem time?_timeText {t : Nat} (ht : t < 86400000000) {tail : List Char} (htail : Halts tail)
    {o : Option Int} (ho : Stamp.offset? tail = some o) :
    Stamp.time? ((timeText t).toList ++ tail) = some ((t : Int), o) := by
  have hhour : t / 1000000 / 3600 < 10 ^ 2 := by omega
  have hminute : t / 1000000 / 60 % 60 < 10 ^ 2 := by omega
  have hsecond : t / 1000000 % 60 < 10 ^ 2 := by omega
  have hfraction : t % 1000000 < 10 ^ 6 := by omega
  have hbounds : ¬ (23 < t / 1000000 / 3600 ∨ 59 < t / 1000000 / 60 % 60) := by omega
  have hsmall : ¬ 59 < t / 1000000 % 60 := by omega
  have htext : (timeText t).toList ++ tail = (digits 2 (t / 1000000 / 3600)).toList
      ++ (':' :: ((digits 2 (t / 1000000 / 60 % 60)).toList
      ++ (':' :: ((digits 2 (t / 1000000 % 60)).toList
      ++ ((fractionText (t % 1000000)).toList ++ tail))))) := by
    simp [timeText]
  rw [htext, Stamp.time?]
  simp only [digits?_digits (by decide) hhour, drop_digits (by decide) hhour,
    digits?_digits (by decide) hminute, drop_digits (by decide) hminute,
    digits?_digits (by decide) hsecond, drop_digits (by decide) hsecond,
    fraction?_fractionText hfraction htail, List.head?_cons, List.drop_one, List.tail_cons]
  simp [hbounds, hsmall, ho, Moment.second]
  omega

/-! ## Stamps -/

/-- A clock can show the moment: it lies in the years 1 to 9999, and the clock is less than a day ahead
of UTC or behind it. -/
structure Shown (m : Moment) : Prop where
  wall : shows m.wall = true
  offset : ∀ o ∈ m.offset, o.natAbs < 86400

/-- The moment on a clock whose offset is rounded to the minute. -/
def toMinute (m : Moment) : Moment := ⟨m.wall, m.offset.map minutesOf⟩

theorem Shown.bounds {m : Moment} (h : m.Shown) : 0 ≤ m.wall ∧ m.wall < limit :=
  of_decide_eq_true h.wall

theorem natAbs_minutesOf_le (o : Int) : (minutesOf o).natAbs ≤ o.natAbs := by
  unfold minutesOf Decimal.signed
  split <;> omega

theorem Shown.toMinute {m : Moment} (h : m.Shown) : m.toMinute.Shown := by
  refine ⟨h.wall, ?_⟩
  intro o ho
  rw [Moment.toMinute, Option.mem_def, Option.map_eq_some_iff] at ho
  obtain ⟨a, ha, rfl⟩ := ho
  exact Nat.lt_of_le_of_lt (natAbs_minutesOf_le a) (h.offset a ha)

/-- A clock can show the moment, and is ahead of UTC or behind it by whole minutes: the stamp says all
of the moment. -/
structure Stamped (m : Moment) : Prop extends m.Shown where
  minutes : ∀ o ∈ m.offset, minutesOf o = o

theorem Stamped.toMinute_eq {m : Moment} (h : m.Stamped) : m.toMinute = m := by
  obtain ⟨wall, offset⟩ := m
  cases offset with
  | none => rfl
  | some o => exact congrArg (fun a => (⟨wall, some a⟩ : Moment)) (h.minutes o rfl)

theorem minutesOf_minutesOf (o : Int) : minutesOf (minutesOf o) = minutesOf o := by
  unfold minutesOf Decimal.signed
  simp only [decide_eq_true_eq]
  split_ifs <;> omega

/-- To the minute of its offset every moment that a clock can show is stamped. -/
theorem Shown.stamped_toMinute {m : Moment} (h : m.Shown) : m.toMinute.Stamped := by
  refine ⟨h.toMinute, fun o ho => ?_⟩
  obtain ⟨a, -, rfl⟩ := Option.map_eq_some_iff.mp ho
  exact minutesOf_minutesOf a

theorem Shown.inUtc {m : Moment} (h : m.Shown) : m.inUtc.Shown := by
  refine ⟨h.wall, ?_⟩
  rintro _ ⟨⟩
  cases hm : m.offset with
  | none => decide
  | some o => exact h.offset o hm

theorem Stamped.inUtc {m : Moment} (h : m.Stamped) : m.inUtc.Stamped := by
  refine ⟨h.toShown.inUtc, ?_⟩
  rintro _ ⟨⟩
  cases hm : m.offset with
  | none => rfl
  | some o => exact h.minutes o hm

theorem isNaive_toMinute (m : Moment) : m.toMinute.isNaive = m.isNaive := by
  simp [isNaive, Moment.toMinute]

theorem Shown.days_lt {m : Moment} (h : m.Shown) : (m.wall / day).toNat < Date.dayLimit := by
  obtain ⟨hlow, hhigh⟩ := h.bounds
  unfold limit at hhigh
  unfold day second at *
  omega

theorem ofDate_date {m : Moment} (h : m.Shown) (o : Option Int) :
    ofDate m.date m.timeOfDay o = ⟨m.wall, o⟩ := by
  obtain ⟨hlow, -⟩ := h.bounds
  unfold ofDate date timeOfDay
  rw [Date.toDays_ofDays]
  unfold day second
  congr 1
  omega

theorem dateTime?_wall {m : Moment} (h : m.Shown) {tail : List Char} (htail : Halts tail)
    {o : Option Int} (ho : Stamp.offset? tail = some o) :
    Stamp.dateTime? m.date ('T' :: ((timeText m.timeOfDay.toNat).toList ++ tail)) =
      some ⟨m.wall, o⟩ := by
  have htime : m.timeOfDay.toNat < 86400000000 := by
    unfold timeOfDay day second
    omega
  have hnonneg : ((m.timeOfDay.toNat : Nat) : Int) = m.timeOfDay := by
    unfold timeOfDay day second
    omega
  simp only [Stamp.dateTime?, List.drop_one, List.tail_cons, time?_timeText htime htail ho, hnonneg]
  rw [← ofDate_date h]
  rfl

/-- Date and time with an offset behind them are read back. -/
theorem ofText_wallText {m : Moment} (h : m.Shown) {tail : String} (htail : Halts tail.toList)
    {o : Option Int} (ho : Stamp.offset? tail.toList = some o) :
    Stamp.ofText (m.wallText ++ tail) = .ok ⟨m.wall, o⟩ := by
  have hvalid : m.date.isValid = true := Date.isValid_ofDays h.days_lt
  have hyear : m.date.year ≠ 0 := by
    obtain ⟨hy, -⟩ := of_decide_eq_true hvalid
    omega
  have htext : (m.wallText ++ tail).toList = (dateText m.date).toList ++ ('T' ::
      ((timeText m.timeOfDay.toNat).toList ++ tail.toList)) := by
    rw [wallText_eq]
    simp
  have hsize : 10 ≤ (m.wallText ++ tail).utf8ByteSize := by
    refine Nat.le_trans ?_ (length_le_utf8ByteSize _)
    obtain ⟨-, hy, -, hm, -, hd⟩ := of_decide_eq_true hvalid
    have hlen := Date.daysInMonth_le m.date.year m.date.month
    have h4 := length_digits (show 0 < 4 by decide) (show m.date.year < 10 ^ 4 by omega)
    have h2 := length_digits (show 0 < 2 by decide) (show m.date.month < 10 ^ 2 by omega)
    have h2' := length_digits (show 0 < 2 by decide) (show m.date.day < 10 ^ 2 by omega)
    rw [htext, dateText]
    simp [h4, h2, h2']
    omega
  rw [Stamp.ofText]
  simp only [htext, dateAt_dateText hvalid hsize, dateTime?_wall h htail ho]
  simp [hyear]

/-- A stamp is read back as its moment, the offset to the minute. -/
theorem ofText_stamp {m : Moment} (h : m.Shown) : Stamp.ofText m.stamp = .ok m.toMinute := by
  rw [stamp_eq]
  exact ofText_wallText h (halts_stampOffset m.offset) (offset?_stampOffset h.offset)

/-- A moment in UTC is read back from its text in full. -/
theorem ofText_iso {m : Moment} (h : m.Shown) (hutc : m.offset = some 0) :
    Stamp.ofText m.iso = .ok m := by
  have hiso : m.iso = m.wallText ++ signedOffset 0 := by
    unfold iso
    rw [hutc]
  have hhalts : Halts (signedOffset 0).toList := by
    intro c hc
    cases hc
    exact ⟨rfl, by decide, by decide⟩
  rw [hiso, ofText_wallText h hhalts (show Stamp.offset? _ = some (some 0) from rfl), ← hutc]

/-! ## What is read can be shown -/

theorem Shown.ofDate {d : Date} (hd : d.isValid = true) {time : Int} (ht : 0 ≤ time ∧ time < day)
    {o : Option Int} (ho : ∀ a ∈ o, a.natAbs < 86400) : (Moment.ofDate d time o).Shown := by
  have := Date.toDays_lt hd
  refine ⟨?_, ho⟩
  rw [shows, decide_eq_true_eq, Moment.ofDate, limit]
  unfold day second at *
  constructor <;> simp only <;> omega

end Moment

namespace Stamp

theorem foldl_digits_lt (ds : List Nat) (h : ∀ d ∈ ds, d < 10) (n : Nat) :
    ds.foldl (fun n d => 10 * n + d) n < (n + 1) * 10 ^ ds.length := by
  induction ds generalizing n with
  | nil => simp
  | cons d ds ih =>
    have hd := h d List.mem_cons_self
    refine Nat.lt_of_lt_of_le (ih (fun a ha => h a (List.mem_cons_of_mem d ha)) (10 * n + d)) ?_
    rw [List.length_cons, Nat.pow_succ, Nat.mul_comm _ 10, ← Nat.mul_assoc]
    exact Nat.mul_le_mul_right _ (by omega)

theorem asciiDigit?_lt {c : Char} {d : Nat} (h : Text.asciiDigit? c = some d) : d < 10 := by
  unfold Text.asciiDigit? at h
  split at h
  · next hc =>
    have : c.toNat ≤ 57 := by
      simp only [Char.isDigit, Bool.and_eq_true, decide_eq_true_eq] at hc
      exact hc.2
    cases h
    show c.toNat - 48 < 10
    omega
  · cases h

theorem lt_of_mem_filterMap {cs : List Char} {d : Nat}
    (h : d ∈ cs.filterMap Text.asciiDigit?) : d < 10 := by
  obtain ⟨c, -, hc⟩ := List.mem_filterMap.mp h
  exact asciiDigit?_lt hc

theorem ofDigits_lt {ds : List Nat} (h : ∀ d ∈ ds, d < 10) :
    Decimal.ofDigits ds < 10 ^ ds.length := by
  have := foldl_digits_lt ds h 0
  rwa [Nat.zero_add, Nat.one_mul] at this

theorem digits?_lt {width n : Nat} {cs : List Char} (h : digits? width cs = some n) :
    n < 10 ^ width := by
  simp only [digits?] at h
  split at h
  · next hlen =>
    cases h
    have hds : ∀ d ∈ (cs.take width).filterMap Text.asciiDigit?, d < 10 :=
      fun d => lt_of_mem_filterMap
    have := ofDigits_lt hds
    rwa [hlen] at this
  · cases h

theorem dateAt_ok {size : Nat} {cs rest : List Char} {d : Date} (h : dateAt size cs = .ok (d, rest))
    (hy : d.year ≠ 0) : d.isValid = true := by
  simp only [dateAt, bind, Except.bind, pure, Except.pure, throw, throwThe,
    MonadExceptOf.throw] at h
  -- only the branch in which every field is read and within its bounds gives a date
  repeat' split at h
  all_goals cases h
  rename_i year hyear _ _ month hmonth _ _ day hday hm hd
  have hlate := digits?_lt hyear
  simp only [Bool.or_eq_true, decide_eq_true_eq, not_or] at hm hd
  rw [Date.isValid, decide_eq_true_eq]
  simp only at hy ⊢
  omega

/-- The digits of a fraction of a second, cut after the sixth, are fewer than a million microseconds. -/
theorem micros_lt (cs : List Char) :
    let kept := (cs.filterMap Text.asciiDigit?).take 6
    Decimal.ofDigits kept * 10 ^ (6 - kept.length) < 1000000 := by
  intro kept
  have hkept : Decimal.ofDigits kept < 10 ^ kept.length :=
    ofDigits_lt fun d hd => lt_of_mem_filterMap (List.mem_of_mem_take hd)
  have hlen : kept.length ≤ 6 := List.length_take_le 6 _
  calc Decimal.ofDigits kept * 10 ^ (6 - kept.length)
      < 10 ^ kept.length * 10 ^ (6 - kept.length) :=
        Nat.mul_lt_mul_of_pos_right hkept (Nat.pow_pos (by decide))
    _ = 10 ^ 6 := by rw [← Nat.pow_add, Nat.add_sub_cancel' hlen]

theorem fraction?_lt {cs rest : List Char} {n : Int} (h : fraction? cs = some (n, rest)) :
    0 ≤ n ∧ n < 1000000 := by
  unfold fraction? at h
  split at h
  · next c tail =>
    split at h
    · simp only at h
      split at h
      · cases h
      have hbound := micros_lt (tail.takeWhile Char.isDigit)
      cases h
      constructor
      · exact Int.natCast_nonneg _
      · exact Int.ofNat_lt.mpr hbound
    · cases h
      decide
  · cases h
    decide

theorem offset?_bounds {cs : List Char} {o : Option Int} (h : offset? cs = some o) :
    ∀ a ∈ o, a.natAbs < 86400 ∧ Moment.minutesOf a = a := by
  unfold offset? at h
  split at h
  · cases h
    simp
  · cases h
    simp [Moment.minutesOf, Decimal.signed]
  · cases h
    simp [Moment.minutesOf, Decimal.signed]
  · next sign rest _ _ =>
    simp only [Option.bind_eq_bind, pure] at h
    generalize (if (rest.drop 2).head? == some ':' then (rest.drop 2).drop 1 else rest.drop 2)
      = tail at h
    split at h
    case' isFalse => split at h
    all_goals
      obtain ⟨negative, -, h⟩ := Option.bind_eq_some_iff.mp h
      obtain ⟨hours, -, h⟩ := Option.bind_eq_some_iff.mp h
      obtain ⟨minutes, -, h⟩ := Option.bind_eq_some_iff.mp h
      split at h
      · cases h
      next hbound =>
      cases h
      simp only [Bool.or_eq_true, decide_eq_true_eq, not_or] at hbound
      intro a ha
      cases ha
      unfold Moment.minutesOf Decimal.signed
      simp only [decide_eq_true_eq]
      constructor <;> repeat' split
      all_goals omega

theorem time?_bounds {cs : List Char} {t : Int} {o : Option Int} (h : time? cs = some (t, o)) :
    (0 ≤ t ∧ t < Moment.day) ∧ ∀ a ∈ o, a.natAbs < 86400 ∧ Moment.minutesOf a = a := by
  unfold time? at h
  obtain ⟨hour, -, h⟩ := Option.bind_eq_some_iff.mp h
  dsimp only at h
  split at h
  · cases h
  obtain ⟨minute, -, h⟩ := Option.bind_eq_some_iff.mp h
  split at h
  · cases h
  next hbound =>
  simp only [Bool.or_eq_true, decide_eq_true_eq, not_or] at hbound
  unfold Moment.day Moment.second
  split at h
  · obtain ⟨second, -, h⟩ := Option.bind_eq_some_iff.mp h
    split at h
    · cases h
    obtain ⟨⟨micros, rest⟩, hmicros, h⟩ := Option.bind_eq_some_iff.mp h
    obtain ⟨offset, hoffset, h⟩ := Option.bind_eq_some_iff.mp h
    have hfraction := fraction?_lt hmicros
    cases h
    refine ⟨?_, offset?_bounds hoffset⟩
    unfold Moment.second
    simp only
    omega
  · obtain ⟨offset, hoffset, h⟩ := Option.bind_eq_some_iff.mp h
    cases h
    refine ⟨?_, offset?_bounds hoffset⟩
    unfold Moment.second
    omega

theorem stamped_of_ofMicros {t : Int} {m : Moment} (h : ofMicros t = .ok m) : m.Stamped := by
  unfold ofMicros at h
  repeat' split at h
  all_goals cases h
  refine ⟨⟨?_, by simp⟩, by simp [Moment.minutesOf, Decimal.signed]⟩
  rw [Moment.shows, decide_eq_true_eq]
  unfold Moment.limit Moment.epoch Moment.day Moment.second Date.dayLimit at *
  simp only
  omega

theorem stamped_of_ofInt {n : Int} {m : Moment} (h : ofInt n = .ok m) : m.Stamped :=
  stamped_of_ofMicros h

theorem stamped_of_ofFloat {x : Float} {m : Moment} (h : ofFloat x = .ok m) : m.Stamped := by
  unfold ofFloat at h
  split at h
  · cases h
  · split at h <;> exact stamped_of_ofMicros h
  · cases h

/-- Every moment that a text stands for is one that its stamp says all of. -/
theorem stamped_of_ofText {s : String} {m : Moment} (h : ofText s = .ok m) : m.Stamped := by
  simp only [ofText] at h
  split at h
  · next d rest hdate =>
    split at h
    · cases h
    next m' hm =>
    split at h
    · cases h
    next hy =>
    cases h
    have hd := dateAt_ok hdate hy
    split at hm
    · cases hm
      exact ⟨.ofDate hd (by decide) (by simp), by simp [Moment.ofDate]⟩
    · simp only [dateTime?, Option.bind_eq_bind, Option.bind_eq_some_iff, pure] at hm
      obtain ⟨sep, -, hm⟩ := hm
      split at hm
      · cases hm
      obtain ⟨⟨time, o⟩, htime, hm⟩ := Option.bind_eq_some_iff.mp hm
      cases hm
      obtain ⟨hbounds, hoffset⟩ := time?_bounds htime
      exact ⟨.ofDate hd hbounds fun a ha => (hoffset a ha).1, fun a ha => (hoffset a ha).2⟩
  · split at h
    · exact stamped_of_ofInt h
    · split at h
      · next hx =>
        cases h
        exact stamped_of_ofFloat hx
      · cases h
      · cases h
    · cases h

end Stamp

end TaskAutomation
