import TaskAutomation.Proofs.Calendar.Iso
import TaskAutomation.Proofs.Calendar.Month
import TaskAutomation.Proofs.DueDate

/-!
# Distances ahead of a reference

Days and weeks are counted in microseconds, months on the calendar. Both end with the year 9999, and up to
there a month more is later than a week more, and a week more later than a day more.

* `Directive.text d` : a directive as it is written; `DueDate.ahead reference u n` : what it stands for;
* `DueDate.ahead_eq` : this is the moment that lies ahead of the reference, however many digits the amount
  has;
* `DueDate.relative_dates` : where the three units lead, up to which amount, and how they compare.
-/

namespace TaskAutomation

/-- The name of a unit. -/
def DateUnit.plural : DateUnit → String
  | .days => "days"
  | .weeks => "weeks"
  | .months => "months"

/-- A directive as it is written: a plus, the amount, a blank and the name of the unit. -/
def Directive.text (d : Directive) : String := "+" ++ toString d.amount ++ " " ++ d.unit.plural

/-! ## Dates of moments -/

namespace Moment

theorem timeOfDay_bounds (m : Moment) : 0 ≤ m.timeOfDay ∧ m.timeOfDay < day := by
  unfold timeOfDay day second
  omega

variable {d : Date} {time : Int} (htime : 0 ≤ time ∧ time < day)
include htime

theorem timeOfDay_ofDate (d : Date) (o : Option Int) : (ofDate d time o).timeOfDay = time := by
  unfold ofDate timeOfDay
  unfold day second at *
  dsimp only
  omega

theorem date_ofDate (hd : d.isValid = true) (o : Option Int) : (ofDate d time o).date = d := by
  have hday : (((d.toDays : Int) * day + time) / day).toNat = d.toDays := by
    unfold day second at *
    omega
  rw [date, ofDate, hday, Date.ofDays_toDays hd]

end Moment

/-! ## Reading directives -/

namespace Directive

variable {d : Directive} {base m : Moment}

theorem toList_text (d : Directive) : d.text.toList =
    '+' :: (Nat.toDigits 10 d.amount ++ ' ' :: d.unit.plural.toList) := by
  simp [text, Nat.repr_eq_ofList_toDigits]

/-- A directive is read back from what is written, unless it has too many digits for an integer. -/
theorem read?_text (d : Directive) : read? d.text.toList =
    if Decimal.maxDigits < (Nat.toDigits 10 d.amount).length then none else some d := by
  have hdigit : ∀ c ∈ Nat.toDigits 10 d.amount, c.isDigit = true :=
    fun c => Nat.isDigit_of_mem_toDigits (by decide) (by decide)
  have hfilled : Nat.toDigits 10 d.amount ≠ [] := Nat.toDigits_ne_nil
  have hblank : (Nat.toDigits 10 d.amount ++ ' ' :: d.unit.plural.toList).dropWhile Text.isBlank =
      Nat.toDigits 10 d.amount ++ ' ' :: d.unit.plural.toList := by
    refine Text.dropWhile_of_head fun c hc => Text.not_isBlank_of_isDigit (hdigit c ?_)
    rw [List.head?_append_of_ne_nil _ hfilled] at hc
    exact List.mem_of_mem_head? hc
  have htake : (Nat.toDigits 10 d.amount ++ ' ' :: d.unit.plural.toList).takeWhile
      (fun c => (Text.digitValue? c).isSome) = Nat.toDigits 10 d.amount := by
    rw [List.takeWhile_append_of_pos fun c hc => by
      rw [Text.digitValue?_of_isDigit (hdigit c hc), Text.asciiDigit?, if_pos (hdigit c hc)]; rfl]
    exact List.append_nil _
  have hword : (' ' :: d.unit.plural.toList).dropWhile Text.isBlank = d.unit.plural.toList := by
    cases d.unit <;> rfl
  have hunit : unitOf? d.unit.plural.toList = some d.unit := by
    cases d.unit <;> decide
  have hvalue : Decimal.ofDigits ((Nat.toDigits 10 d.amount).filterMap Text.digitValue?) = d.amount := by
    rw [List.filterMap_congr fun c hc => Text.digitValue?_of_isDigit (hdigit c hc),
      ofDigits_filterMap hdigit, Nat.ofDigitChars_ten_toDigits]
  rw [toList_text, read?]
  rw [hblank, htake, List.drop_left, hword, hunit, hvalue, List.isEmpty_eq_false_iff.mpr hfilled,
    Bool.false_or]
  simp only [decide_eq_true_eq, Option.map_some]

/-! ## Where directives lead -/

theorem after?_weeks (n : Nat) (base : Moment) :
    after? ⟨n, .weeks⟩ base = after? ⟨7 * n, .days⟩ base := by
  unfold after?
  dsimp only
  push_cast
  rfl

section
variable (h : base.InUtc)
include h

theorem after?_days {n : Nat} : after? ⟨n, .days⟩ base = some m ↔
    base.wall + n * Moment.day < Moment.limit ∧ m = ⟨base.wall + n * Moment.day, some 0⟩ := by
  have hlow : 0 ≤ base.wall + n * Moment.day := by
    have := h.shown.bounds.1
    unfold Moment.day Moment.second
    omega
  unfold after? Moment.add? Moment.shows
  dsimp only
  rw [h.utc]
  split
  · next hshows =>
    rw [decide_eq_true_eq] at hshows
    exact ⟨fun heq => ⟨hshows.2, (Option.some.inj heq).symm⟩, fun heq => congrArg some heq.2.symm⟩
  · next hshows =>
    rw [decide_eq_true_eq] at hshows
    exact ⟨fun heq => (Option.some_ne_none _ heq.symm).elim, fun heq => absurd ⟨hlow, heq.1⟩ hshows⟩

theorem after?_months {n : Nat} : after? ⟨n, .months⟩ base = some m ↔
    base.date.monthIndex + n < 120000
      ∧ m = .ofDate (base.date.addMonths n) base.timeOfDay (some 0) := by
  have hvalid : base.date.isValid = true := Date.isValid_ofDays h.shown.days_lt
  unfold after?
  dsimp only
  rw [h.utc, ← Date.isValid_addMonths hvalid]
  split
  · next hdate =>
    exact ⟨fun heq => ⟨hdate, (Option.some.inj heq).symm⟩, fun heq => congrArg some heq.2.symm⟩
  · next hdate =>
    exact ⟨fun heq => (Option.some_ne_none _ heq.symm).elim, fun heq => absurd heq.1 hdate⟩

/-- Amounts of more than seven digits lead out of the calendar. -/
theorem amount_lt_of_after? (hafter : d.after? base = some m) : d.amount < 10 ^ 7 := by
  have hlow := h.shown.bounds.1
  obtain ⟨n, u⟩ := d
  show n < 10 ^ 7
  cases u with
  | days =>
    have := ((after?_days h).mp hafter).1
    unfold Moment.limit Moment.day Moment.second Date.dayLimit at this
    omega
  | weeks =>
    rw [after?_weeks] at hafter
    have := ((after?_days h).mp hafter).1
    unfold Moment.limit Moment.day Moment.second Date.dayLimit at this
    omega
  | months =>
    have := ((after?_months h).mp hafter).1
    omega

end

end Directive

/-! ## Due dates -/

namespace DueDate

variable {reference m : Moment}

/-- What a number of units ahead of a reference stands for. -/
def ahead (reference : Moment) (u : DateUnit) (n : Nat) : Option Moment :=
  resolve reference (.str (Directive.text ⟨n, u⟩))

/-- There are only so many steps below a limit. -/
theorem exists_steps {start step limit : Int} (hstep : 0 < step) (hstart : start < limit) :
    ∃ N : Nat, ∀ n : Nat, start + n * step < limit ↔ n < N := by
  have hnonneg : 0 ≤ (limit - start - 1) / step := Int.ediv_nonneg (by omega) (by omega)
  refine ⟨((limit - start - 1) / step).toNat + 1, fun n => ?_⟩
  have hle : (n : Int) ≤ (limit - start - 1) / step ↔ n * step ≤ limit - start - 1 :=
    Int.le_ediv_iff_mul_le hstep
  omega

section
variable (h : reference.InUtc)
include h

/-- It is the moment that lies ahead, however many digits the amount has. -/
theorem ahead_eq (u : DateUnit) (n : Nat) : ahead reference u n = Directive.after? ⟨n, u⟩ reference := by
  have htext := Directive.toList_text ⟨n, u⟩
  have hends : Text.trimList Text.isBlank (Directive.text ⟨n, u⟩).toList =
      (Directive.text ⟨n, u⟩).toList := by
    rw [htext]
    refine Text.trimList_of_ends ?_ ?_
    · rintro c ⟨⟩
      decide
    · intro c hc
      have hlast : ('+' :: (Nat.toDigits 10 n ++ ' ' :: u.plural.toList)).getLast? = some 's' := by
        cases u <;> simp [DateUnit.plural, List.getLast?_cons]
      cases hlast.symm.trans hc
      decide
  have hfilled : (Directive.text ⟨n, u⟩).isEmpty = false := by
    rw [← Bool.not_eq_true, String.isEmpty_iff, ← String.toList_inj, htext]
    exact List.cons_ne_nil _ _
  rw [ahead, resolve, hfilled, if_neg Bool.false_ne_true, ofText]
  simp only [hends, Directive.read?_text]
  by_cases hlong : Decimal.maxDigits < (Nat.toDigits 10 n).length
  · -- the amount is no integer, and would lead out of the calendar if it were
    have hiso : Iso.read? (String.ofList (Directive.text ⟨n, u⟩).toList) = none :=
      Iso.read?_of_head (by rw [String.toList_ofList, htext]) (by decide)
    have hnone : Directive.after? ⟨n, u⟩ reference = none := by
      rw [Option.eq_none_iff_forall_ne_some]
      intro m hm
      have hsmall := Directive.amount_lt_of_after? h hm
      have hlength : (Nat.toDigits 10 n).length ≤ 7 :=
        (Nat.length_toDigits_le_iff (by decide) (by decide)).mpr hsmall
      unfold Decimal.maxDigits at hlong
      omega
    rw [if_pos hlong, hiso, hnone]
    rfl
  · rw [if_neg hlong]
    dsimp only
    rw [h.toUtc?]
    rfl

/-- Days lead to the same time of day, exactly. -/
theorem ahead_days {n : Nat} : ahead reference .days n = some m ↔
    reference.wall + n * Moment.day < Moment.limit
      ∧ m = ⟨reference.wall + n * Moment.day, some 0⟩ := by
  rw [ahead_eq h, Directive.after?_days h]

theorem ahead_weeks (n : Nat) : ahead reference .weeks n = ahead reference .days (7 * n) := by
  rw [ahead_eq h, ahead_eq h, Directive.after?_weeks]

theorem ahead_months {n : Nat} : ahead reference .months n = some m ↔
    reference.date.monthIndex + n < 120000
      ∧ m = .ofDate (reference.date.addMonths n) reference.timeOfDay (some 0) := by
  rw [ahead_eq h, Directive.after?_months h]

/-! ### The end of the calendar -/

/-- Every unit can be counted up to some amount, and no further. -/
theorem exists_last (u : DateUnit) : ∃ N, ∀ n, (ahead reference u n).isSome = true ↔ n < N := by
  obtain ⟨N, hN⟩ := exists_steps (show 0 < Moment.day by decide) h.shown.bounds.2
  have hdays : ∀ n, (ahead reference .days n).isSome = true ↔ n < N := by
    intro n
    rw [← hN, Option.isSome_iff_exists]
    simp only [ahead_days h, exists_and_left, exists_eq, and_true]
  cases u with
  | days => exact ⟨N, hdays⟩
  | weeks =>
    refine ⟨(N + 6) / 7, fun n => ?_⟩
    rw [ahead_weeks h, hdays]
    omega
  | months =>
    refine ⟨120000 - reference.date.monthIndex, fun n => ?_⟩
    rw [Option.isSome_iff_exists]
    simp only [ahead_months h, exists_and_left, exists_eq, and_true]
    omega

/-! ### Longer distances are later -/

theorem isValid_date : reference.date.isValid = true := Date.isValid_ofDays h.shown.days_lt

theorem wall_eq : reference.wall = reference.date.toDays * Moment.day + reference.timeOfDay :=
  (congrArg Moment.wall (Moment.ofDate_date h.shown none)).symm

/-- A month is later than four weeks at least. -/
theorem wall_add_le_of_months {n : Nat} (hm : ahead reference .months n = some m) :
    reference.wall + 28 * n * Moment.day ≤ m.wall := by
  obtain ⟨-, rfl⟩ := (ahead_months h).mp hm
  have hdays := Date.toDays_addMonths_le (isValid_date h) n
  rw [wall_eq h, Moment.ofDate]
  unfold Moment.day Moment.second
  dsimp only
  omega

/-- Of two amounts of one unit the greater one leads to the later moment. -/
theorem wall_lt_wall {u : DateUnit} {n n' : Nat} {m' : Moment} (hlt : n < n')
    (hm : ahead reference u n = some m) (hm' : ahead reference u n' = some m') : m.wall < m'.wall := by
  have hdays : ∀ {n n' : Nat} {m m' : Moment}, n < n' → ahead reference .days n = some m →
      ahead reference .days n' = some m' → m.wall < m'.wall := by
    intro n n' m m' hlt hm hm'
    rw [((ahead_days h).mp hm).2, ((ahead_days h).mp hm').2]
    unfold Moment.day Moment.second
    dsimp only
    omega
  cases u with
  | days => exact hdays hlt hm hm'
  | weeks =>
    rw [ahead_weeks h] at hm hm'
    exact hdays (by omega) hm hm'
  | months =>
    obtain ⟨-, rfl⟩ := (ahead_months h).mp hm
    obtain ⟨-, rfl⟩ := (ahead_months h).mp hm'
    have hmono : (reference.date.addMonths n).toDays < (reference.date.addMonths n').toDays :=
      Date.strictMono_toDays_addMonths (isValid_date h) hlt
    unfold Moment.ofDate Moment.day Moment.second
    dsimp only
    omega

/-- The date of a month ahead: in the month of that number, on the same day or the last one. -/
theorem date_of_months {n : Nat} (hm : ahead reference .months n = some m) :
    m.date = reference.date.addMonths n ∧ m.timeOfDay = reference.timeOfDay := by
  obtain ⟨hlast, rfl⟩ := (ahead_months h).mp hm
  have htime := Moment.timeOfDay_bounds reference
  have hvalid := (Date.isValid_addMonths (isValid_date h)).mpr hlast
  exact ⟨Moment.date_ofDate htime hvalid _, Moment.timeOfDay_ofDate htime _ _⟩

/-- A month is counted by the calendar. -/
theorem month_of_months {n : Nat} (hm : ahead reference .months n = some m) :
    (1 ≤ m.date.month ∧ m.date.month ≤ 12)
      ∧ m.date.year * 12 + m.date.month = reference.date.year * 12 + reference.date.month + n
      ∧ m.date.day = min reference.date.day (Date.daysInMonth m.date.year m.date.month) := by
  obtain ⟨-, -, hmonth, -⟩ := of_decide_eq_true (isValid_date h)
  rw [(date_of_months h hm).1, Date.addMonths_eq, Date.monthIndex]
  dsimp only
  refine ⟨by omega, by omega, rfl⟩

/-- A week is later than a day, and a month later than a week. -/
theorem days_weeks_of_months {n : Nat} (hn : 1 ≤ n) (hm : ahead reference .months n = some m) :
    ∃ d w, ahead reference .days n = some d ∧ ahead reference .weeks n = some w
      ∧ reference.wall < d.wall ∧ d.wall < w.wall ∧ w.wall < m.wall := by
  have hfour := wall_add_le_of_months h hm
  have hlast := (inUtc_of_resolve hm).shown.bounds.2
  have hday : 0 < Moment.day := by decide
  have hdays : (7 * n : Nat) * Moment.day = 7 * (n * Moment.day) := by
    push_cast
    exact Int.mul_assoc _ _ _
  have hmonth : 28 * n * Moment.day = 28 * (n * Moment.day) := Int.mul_assoc _ _ _
  have hpos : 0 < n * Moment.day := Int.mul_pos (by omega) hday
  refine ⟨⟨reference.wall + n * Moment.day, some 0⟩,
    ⟨reference.wall + (7 * n : Nat) * Moment.day, some 0⟩, (ahead_days h).mpr ⟨?_, rfl⟩, ?_, ?_⟩
  · omega
  · rw [ahead_weeks h]
    exact (ahead_days h).mpr ⟨by omega, rfl⟩
  · dsimp only
    omega

end

/-- Where days, weeks and months ahead of a reference lead. A week is seven days. Each unit can be counted
up to some amount, and more of it is later. Days are exact; a month keeps the time of day, and the day of
the month or the last one of a shorter month. As far as months lead, days and weeks lead too, and earlier. -/
theorem relative_dates (h : reference.InUtc) :
    (∀ n, ahead reference .weeks n = ahead reference .days (7 * n))
    ∧ (∀ u, (∃ N, ∀ n, (ahead reference u n).isSome = true ↔ n < N)
        ∧ ∀ n n' m m', n < n' → ahead reference u n = some m → ahead reference u n' = some m' →
          m.instant < m'.instant)
    ∧ (∀ n m, ahead reference .days n = some m → m.instant = reference.instant + n * Moment.day)
    ∧ (∀ n m, ahead reference .months n = some m →
        (1 ≤ m.date.month ∧ m.date.month ≤ 12)
          ∧ m.date.year * 12 + m.date.month = reference.date.year * 12 + reference.date.month + n
          ∧ m.date.day = min reference.date.day (Date.daysInMonth m.date.year m.date.month)
          ∧ m.timeOfDay = reference.timeOfDay ∧ m.offset = some 0)
    ∧ ∀ n m, 1 ≤ n → ahead reference .months n = some m →
        ∃ d w, ahead reference .days n = some d ∧ ahead reference .weeks n = some w
          ∧ reference.instant < d.instant ∧ d.instant < w.instant ∧ w.instant < m.instant := by
  have hinstant : ∀ {u n m}, ahead reference u n = some m → m.instant = m.wall :=
    fun hm => (inUtc_of_resolve hm).instant
  refine ⟨ahead_weeks h, fun u => ⟨exists_last h u, fun n n' m m' hlt hm hm' => ?_⟩, fun n m hm => ?_,
    fun n m hm => ?_, fun n m hn hm => ?_⟩
  · rw [hinstant hm, hinstant hm']
    exact wall_lt_wall h hlt hm hm'
  · rw [hinstant hm, h.instant, ((ahead_days h).mp hm).2]
  · obtain ⟨hbounds, hnumber, hday⟩ := month_of_months h hm
    exact ⟨hbounds, hnumber, hday, (date_of_months h hm).2, (inUtc_of_resolve hm).utc⟩
  · obtain ⟨d, w, hd, hw, hlt⟩ := days_weeks_of_months h hn hm
    refine ⟨d, w, hd, hw, ?_⟩
    rw [h.instant, hinstant hd, hinstant hw, hinstant hm]
    exact hlt

/-- A month after the last of January is the last of February, at the same time of day. -/
theorem relative_dates_of_last_of_january :
    ∃ d w, resolve (.ofDate ⟨2024, 1, 31⟩ 37800000001 (some 0)) (.str "+1 days") = some d
      ∧ resolve (.ofDate ⟨2024, 1, 31⟩ 37800000001 (some 0)) (.str "+1 weeks") = some w
      ∧ resolve (.ofDate ⟨2024, 1, 31⟩ 37800000001 (some 0)) (.str "+1 months") =
        some (.ofDate ⟨2024, 2, 29⟩ 37800000001 (some 0))
      ∧ d.instant < w.instant
      ∧ w.instant < (Moment.ofDate ⟨2024, 2, 29⟩ 37800000001 (some 0)).instant := by
  have hutc : (Moment.ofDate ⟨2024, 1, 31⟩ 37800000001 (some 0)).InUtc :=
    inUtc_of_shows (by decide +kernel)
  have hmonth : ahead (.ofDate ⟨2024, 1, 31⟩ 37800000001 (some 0)) .months 1 =
      some (.ofDate ⟨2024, 2, 29⟩ 37800000001 (some 0)) := by
    decide +kernel
  obtain ⟨-, -, -, -, hsooner⟩ := relative_dates hutc
  obtain ⟨d, w, hd, hw, -, hdw, hwm⟩ := hsooner 1 _ (Nat.le_refl 1) hmonth
  exact ⟨d, w, hd, hw, hmonth, hdw, hwm⟩

end DueDate

end TaskAutomation
