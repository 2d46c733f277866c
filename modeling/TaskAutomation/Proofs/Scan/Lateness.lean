import TaskAutomation.Proofs.Decimal.Monotone
import TaskAutomation.Proofs.Scan.Budget
import TaskAutomation.Proofs.Tasks.Handover

/-!
# How late a scan says that tasks are

A scan finds tasks by the scores of their due dates. What it tells the rules of the due date is counted in
whole days, rounded down after two roundings to doubles.

* `Occurrence.wholeDays_mono` : more microseconds are never fewer days; `Occurrence.wholeDays_pos_iff`,
  `Occurrence.wholeDays_nonneg_iff` : just where a day has passed, and where none is left, all the same;
* `Moment.Shown.lt_of_scoreBefore`, `Moment.Shown.scoreBefore_of_day` : a lower score comes from an
  earlier moment, and a whole day always makes a lower score;
* `Scan.found` : the trigger that a scan fires for a task; `Scan.TellsLate`, `Scan.TellsSoon` : what its
  context says of the due date;
* `Scan.user_tells` : after any edits, this is what the scan of a user tells of the user's tasks;
* `Scan.told_otherwise` : a task that was due an hour ago, and one that was due a microsecond ago in a
  year for which doubles do not tell microseconds apart.
-/

namespace TaskAutomation

open Check Program Decimal

/-! ## Whole days -/

namespace Moment

variable {a b : Moment}

@[simp] theorem instant_inUtc (m : Moment) : m.inUtc.instant = m.instant := rfl

/-- Two moments that clocks can show are not too far apart to be counted. -/
theorem Shown.near (ha : a.Shown) (hb : b.Shown) : |a.instant - b.instant| < 2 ^ 64 := by
  have hoffset : ∀ {m : Moment}, m.Shown → (m.offset.getD 0).natAbs < 86400 := by
    intro m hm
    cases ho : m.offset with
    | none => decide
    | some o => exact hm.offset o ho
  have hwall := ha.bounds
  have hwall' := hb.bounds
  have hclock := hoffset ha
  have hclock' := hoffset hb
  have hlimit : limit = 3652059 * 86400 * 1000000 := rfl
  rw [abs_lt]
  unfold instant second
  omega

/-- The moments that clocks can show are not too far from 1970. -/
theorem Shown.near_epoch (ha : a.Shown) : |a.instant - epoch| < 2 ^ 64 :=
  ha.near (b := ofInstant epoch) ⟨by decide, by rintro _ ⟨⟩; decide⟩

end Moment

namespace Occurrence

variable {a b micros : Int}

theorem natAbs_seconds_lt (h : |micros| < 2 ^ 64) :
    ((micros.natAbs : ℚ) / (1000000 : ℕ)) < 2 ^ (45 : ℤ) := by
  have hcast : ((|micros| : ℤ) : ℚ) < 2 ^ 64 := by exact_mod_cast h
  rw [div_lt_iff₀ (by norm_num), Nat.cast_natAbs]
  exact hcast.trans (by norm_num)

/-- Not too many microseconds are counted as seconds by the double nearest to their exact number. -/
theorem rank_secondsOf (h : |micros| < 2 ^ 64) :
    (Binary.ofFloat (Moment.secondsOf micros)).rank = toLex (0, nearestTo (micros / 1000000)) := by
  have hrank := rank_nearest_eq (decide (micros < 0)) micros.natAbs (by decide : 0 < 1000000)
    ((natAbs_seconds_lt h).trans_le (zpow_le_zpow_right₀ (by norm_num) (by decide)))
  rw [signed_natAbs] at hrank
  exact hrank

/-- That double is off by less than a second. -/
theorem abs_seconds_sub_lt (h : |micros| < 2 ^ 64) :
    |nearestTo (micros / 1000000) - micros / 1000000| < 1 := by
  obtain ⟨v, hrank, herror⟩ := rank_nearest (decide (micros < 0)) micros.natAbs
    (by decide : 0 < 1000000) (by decide) (by decide) (natAbs_seconds_lt h)
  have heq : toLex ((0 : ℤ), v) = toLex (0, nearestTo (micros / 1000000)) :=
    hrank.symm.trans (rank_secondsOf h)
  rw [signed_natAbs, show v = nearestTo (micros / 1000000) from congrArg (fun r => (ofLex r).2) heq]
    at herror
  exact herror.trans_lt (by norm_num)

/-- The whole days are rounded down after two roundings to doubles. -/
theorem wholeDays_eq (h : |micros| < 2 ^ 64) :
    wholeDays micros = ⌊nearestTo (nearestTo (micros / 1000000) / 86400)⌋ := by
  have hbelow : |nearestTo (micros / 1000000) / (86400 : ℕ)| < 2 ^ (1023 : ℤ) := by
    have hseconds : |(micros / 1000000 : ℚ)| < 2 ^ (45 : ℤ) := by
      have hlt := natAbs_seconds_lt h
      rw [Nat.cast_natAbs, Int.cast_abs] at hlt
      rw [abs_div]
      exact_mod_cast hlt
    have herror := abs_seconds_sub_lt h
    have htriangle := abs_sub_abs_le_abs_sub (nearestTo (micros / 1000000)) (micros / 1000000)
    have hsmall : |nearestTo (micros / 1000000) / (86400 : ℕ)| < 2 ^ (45 : ℤ) := by
      rw [abs_div, div_lt_iff₀ (by norm_num)]
      norm_num at hseconds ⊢
      linarith
    exact hsmall.trans_le (zpow_le_zpow_right₀ (by norm_num) (by decide))
  obtain ⟨hnumber, hrank⟩ := rank_divide (ofFloat_nearest_ne_nan _ _ _) (rank_secondsOf h)
    (by decide : 0 < 86400) hbelow
  unfold wholeDays Moment.secondsOf
  rw [floor?_of_rank hnumber hrank, Nat.cast_ofNat, Option.getD_some]

/-- More microseconds are never counted as fewer days. -/
theorem wholeDays_mono (hab : a ≤ b) (ha : |a| < 2 ^ 64) (hb : |b| < 2 ^ 64) :
    wholeDays a ≤ wholeDays b := by
  have hcast : (a : ℚ) ≤ b := Int.cast_le.mpr hab
  rw [wholeDays_eq ha, wholeDays_eq hb]
  exact Int.floor_mono (nearestTo_mono (div_le_div_of_nonneg_right
    (nearestTo_mono (div_le_div_of_nonneg_right hcast (by norm_num))) (by norm_num)))

/-- A day has passed just when all of its microseconds have. -/
theorem wholeDays_pos_iff (h : |micros| < 2 ^ 64) : 0 < wholeDays micros ↔ Moment.day ≤ micros := by
  have hone : wholeDays Moment.day = 1 := by decide +kernel
  have hzero : wholeDays (Moment.day - 1) = 0 := by decide +kernel
  constructor
  · intro hpos
    by_contra hless
    have hmono := wholeDays_mono (b := Moment.day - 1) (by omega) h (by decide)
    omega
  · intro hle
    have hmono := wholeDays_mono hle (by decide) h
    omega

theorem wholeDays_nonneg_iff (h : |micros| < 2 ^ 64) : 0 ≤ wholeDays micros ↔ 0 ≤ micros := by
  have hminus : wholeDays (-1) = -1 := by decide +kernel
  have hzero : wholeDays 0 = 0 := by decide +kernel
  constructor
  · intro hnonneg
    by_contra hless
    have hmono := wholeDays_mono (b := -1) (by omega) h (by decide)
    omega
  · intro hle
    have hmono := wholeDays_mono hle (by decide) h
    omega

end Occurrence

/-! ## Scores -/

namespace Moment

variable {a b : Moment}

/-- Only an earlier moment has a lower score. -/
theorem Shown.lt_of_scoreBefore (ha : a.Shown) (hb : b.Shown)
    (h : Scored.scoreBefore a.timestamp b.timestamp = true) : a.instant < b.instant := by
  by_contra hless
  have hcast : ((b.instant - epoch : ℤ) : ℚ) ≤ (a.instant - epoch : ℤ) := Int.cast_le.mpr (by omega)
  rw [Scored.scoreBefore_iff (Tasks.isNumber_timestamp a) (Tasks.isNumber_timestamp b), timestamp,
    timestamp, Occurrence.rank_secondsOf ha.near_epoch, Occurrence.rank_secondsOf hb.near_epoch,
    ← not_le] at h
  refine h (Prod.Lex.toLex_le_toLex.mpr (.inr ⟨rfl, ?_⟩))
  exact nearestTo_mono (div_le_div_of_nonneg_right hcast (by norm_num))

/-- A moment that is earlier by a day has a lower score. -/
theorem Shown.scoreBefore_of_day (ha : a.Shown) (hb : b.Shown) (h : a.instant + day ≤ b.instant) :
    Scored.scoreBefore a.timestamp b.timestamp = true := by
  have hcast : ((a.instant - epoch : ℤ) : ℚ) / 1000000 + 86400 ≤
      (b.instant - epoch : ℤ) / 1000000 := by
    have hle : ((a.instant - epoch + day : ℤ) : ℚ) ≤ (b.instant - epoch : ℤ) :=
      Int.cast_le.mpr (by omega)
    rw [Int.cast_add, show ((day : ℤ) : ℚ) = 86400 * 1000000 by norm_num [day, second]] at hle
    linarith
  have herror := (abs_lt.mp (Occurrence.abs_seconds_sub_lt ha.near_epoch)).2
  have herror' := (abs_lt.mp (Occurrence.abs_seconds_sub_lt hb.near_epoch)).1
  rw [Scored.scoreBefore_iff (Tasks.isNumber_timestamp a) (Tasks.isNumber_timestamp b), timestamp,
    timestamp, Occurrence.rank_secondsOf ha.near_epoch, Occurrence.rank_secondsOf hb.near_epoch,
    Prod.Lex.toLex_lt_toLex]
  refine .inr ⟨rfl, ?_⟩
  linarith

end Moment

/-! ## The scan of a user -/

namespace Tasks

variable {w : World} {m : String → Option Task} {t : Task} {u : String} {members : List Scored}

/-- The due dates of stored tasks are moments that clocks can show. -/
theorem Documents.shown_due (h : Documents w.store m) {id : String} (hm : m id = some t) {due : Moment}
    (hdue : t.dueDate = some due) : due.Shown := by
  have hdocument := h id
  rw [hm] at hdocument
  exact (hdocument.2.1.dueDate due hdue).1.toShown

/-- The user's own tasks among some members of a due index are there by their due dates. -/
theorem Ranks.due_of_mem (hranks : Ranks m u Task.dueDate members) (h : Documents w.store m)
    {f : Float → Bool} (ht : t ∈ openTasks m (members.filter fun a => f a.score))
    (howner : t.userId = u) :
    t.isClosed = false ∧ ∃ due, t.dueDate = some due ∧ due.Shown ∧ f due.timestamp = true := by
  obtain ⟨hmem, hopen⟩ := List.mem_filter.mp ht
  obtain ⟨a, ha, hm⟩ := List.mem_filterMap.mp hmem
  obtain ⟨ha, hf⟩ := List.mem_filter.mp ha
  obtain ⟨due, hdue, hscore⟩ := (hranks.own a t hm howner).mp ha
  exact ⟨by simpa using hopen, due, hdue, h.shown_due hm hdue, hscore ▸ hf⟩

end Tasks

namespace Scan

/-- The trigger that a scan at a moment fires for a task. -/
def found (moment : Moment) (event : Trigger) (t : Task) : Occurrence :=
  ⟨event, t, none, none, [], moment.inUtc⟩

section Found

variable {moment due : Moment} {event : Trigger} {t : Task}

/-- What the context of a trigger says of the due date. -/
theorem get?_context (moment : Moment) (event : Trigger) (hdue : t.dueDate = some due) :
    (found moment event t).context.get? "days_overdue" =
        some (.int (Occurrence.wholeDays (moment.instant - due.instant)))
      ∧ (found moment event t).context.get? "days_until_due" =
        some (.int (Occurrence.wholeDays (due.instant - moment.instant)))
      ∧ (found moment event t).context.get? "is_overdue" =
        some (.bool (decide (0 < Occurrence.wholeDays (moment.instant - due.instant)))) := by
  simp [found, Occurrence.context, Occurrence.dueContext, Occurrence.daysOverdue,
    Occurrence.daysUntilDue, hdue, Fields.get?, List.lookup]

/-- The rules on overdue tasks are told of a task that was due before; the context calls it overdue just
when a whole day has passed since. -/
def TellsLate (moment : Moment) (t : Task) : Prop :=
  ∃ due, t.dueDate = some due ∧ t.isClosed = false ∧ due.instant < moment.instant
    ∧ (found moment .taskOverdue t).context.get? "is_overdue" =
      some (.bool (decide (Moment.day ≤ moment.instant - due.instant)))
    ∧ ∃ n, 0 ≤ n ∧ (found moment .taskOverdue t).context.get? "days_overdue" = some (.int n)

/-- The rules on tasks that are due soon are told of a task that the context does not call overdue; the
days until then are negative only for a due date that has passed, and that the scores take for now. -/
def TellsSoon (moment : Moment) (t : Task) : Prop :=
  ∃ due, t.dueDate = some due ∧ t.isClosed = false
    ∧ (found moment .dueDateApproaching t).context.get? "is_overdue" = some (.bool false)
    ∧ ∃ n, (found moment .dueDateApproaching t).context.get? "days_until_due" = some (.int n)
      ∧ (0 ≤ n ↔ moment.instant ≤ due.instant) ∧ (Tasks.ScoresExact (· ∈ [due, moment]) → 0 ≤ n)

theorem tellsLate_of_score (hmoment : moment.Shown) (hopen : t.isClosed = false)
    (hdue : t.dueDate = some due) (hshown : due.Shown)
    (hscore : Scored.scoreBefore due.timestamp moment.timestamp = true) : TellsLate moment t := by
  have hlt := hshown.lt_of_scoreBefore hmoment hscore
  have hnear := hmoment.near hshown
  obtain ⟨hdays, -, hoverdue⟩ := get?_context moment .taskOverdue hdue
  refine ⟨due, hdue, hopen, hlt, ?_, _, (Occurrence.wholeDays_nonneg_iff hnear).mpr (by omega), hdays⟩
  rw [hoverdue]
  simp only [Occurrence.wholeDays_pos_iff hnear]

theorem tellsSoon_of_score (hmoment : moment.Shown) (hopen : t.isClosed = false)
    (hdue : t.dueDate = some due) (hshown : due.Shown)
    (hscore : Scored.scoreBefore due.timestamp moment.timestamp = false) : TellsSoon moment t := by
  have hless : ¬ Moment.day ≤ moment.instant - due.instant := by
    intro hday
    have hbefore := hshown.scoreBefore_of_day hmoment (by omega)
    rw [hscore] at hbefore
    cases hbefore
  have huntil := Occurrence.wholeDays_nonneg_iff (hshown.near hmoment)
  rw [sub_nonneg] at huntil
  obtain ⟨-, hdays, hoverdue⟩ := get?_context moment .dueDateApproaching hdue
  refine ⟨due, hdue, hopen, ?_, _, hdays, huntil, fun hscores => huntil.mpr ?_⟩
  · rw [hoverdue]
    simp only [Occurrence.wholeDays_pos_iff (hmoment.near hshown), hless, decide_false]
  · have hexact := hscores due moment (by simp) (by simp)
    rw [hscore] at hexact
    exact not_lt.mp fun hlt => absurd (hexact.mpr hlt) Bool.false_ne_true

end Found

variable {e : Engine}

/-- What the scan of a user tells the rules of the user's own tasks, after any edits, whatever is refused
on the way: the context agrees with the trigger that a task due soon is not overdue, and calls an
overdue task overdue once a whole day has passed. -/
theorem user_tells {w : World} {userId : String} {moment stop : Moment} {log : List Entry}
    {result : Except Failure UserReport} (h : Tasks.Tended w) (hmoment : moment.Shown)
    (hstop : daysAfter moment e.settings.dueSoonDays = .ok stop)
    (hends : (user e userId moment).Ends log result) (hw : w.Answers log) :
    ∃ late soon, ((Tasks.overdue userId moment).run w).1 = .ok late
      ∧ ((Tasks.dueWithin userId moment stop).run w).1 = .ok soon
      ∧ Scanned e moment userId late soon log result
      ∧ ∀ x ∈ plan e.settings.scanMaxTasksPerUser.toNat late soon, x.2.userId = userId →
        (x.1 = .taskOverdue ∧ TellsLate moment x.2)
          ∨ (x.1 = .dueDateApproaching ∧ TellsSoon moment x.2) := by
  obtain ⟨⟨m, hm⟩, -, -, ho⟩ := h.tracked
  obtain ⟨members, hkeeps, hranks⟩ := hm.due userId
  have hlate := hm.documents.run_overdue ho hkeeps moment
  have hsoon := hm.documents.run_dueWithin ho hkeeps moment stop
  refine ⟨_, _, congrArg Prod.fst hlate, congrArg Prod.fst hsoon,
    scanned_of_ends ho hstop hlate hsoon hends hw, ?_⟩
  intro x hx howner
  rcases List.mem_append.mp hx with hx | hx
  · obtain ⟨t, ht, rfl⟩ := List.mem_map.mp hx
    obtain ⟨hopen, due, hdue, hshown, hscore⟩ := hranks.due_of_mem hm.documents
      (f := fun a => Scored.scoreBefore a moment.timestamp) (List.mem_of_mem_take ht) howner
    exact .inl ⟨rfl, tellsLate_of_score hmoment hopen hdue hshown hscore⟩
  · obtain ⟨t, ht, rfl⟩ := List.mem_map.mp hx
    obtain ⟨hopen, due, hdue, hshown, hscore⟩ := hranks.due_of_mem hm.documents
      (f := fun a => Scored.atLeast moment.timestamp a && Scored.atLeast a stop.timestamp)
      (List.mem_of_mem_take ht) howner
    have hbefore : Scored.scoreBefore due.timestamp moment.timestamp = false := by
      have hleast := (Bool.and_eq_true_iff.mp hscore).1
      unfold Scored.atLeast at hleast
      simpa using hleast
    exact .inr ⟨rfl, tellsSoon_of_score hmoment hopen hdue hshown hbefore⟩

section Sample

open Tasks

/-- With nothing out of reach, and room for all, a scan fires for what the queries give. -/
theorem fires_all {w : World} {userId : String} {moment stop : Moment} {late soon : List Task}
    (ho : w.outages = []) (hstop : daysAfter moment e.settings.dueSoonDays = .ok stop)
    (hlate : (overdue userId moment).run w = (.ok late, w))
    (hsoon : (dueWithin userId moment stop).run w = (.ok soon, w))
    (hroom : late.length + soon.length ≤ e.settings.scanMaxTasksPerUser.toNat) :
    ∃ firings, ((user e userId moment).run w).1 = .ok (reportOf userId firings)
      ∧ (∀ x ∈ firings, x.Runs e moment)
      ∧ firings.map Firing.target = late.map (.taskOverdue, ·) ++ soon.map (.dueDateApproaching, ·) := by
  have hscanned := scanned_of_ends ho hstop hlate hsoon ((user e userId moment).ends_trace w)
    (World.answers_trace _ w)
  generalize htrace : (user e userId moment).trace w = log at hscanned
  generalize hrun : ((user e userId moment).run w).1 = result at hscanned
  cases hscanned with
  | refused hclean _ => exact absurd (htrace ▸ clean_trace (user e userId moment) ho) hclean
  | @fired _ firings _ _ hruns htargets =>
    refine ⟨firings, rfl, hruns, htargets.trans ?_⟩
    unfold plan
    rw [List.take_of_length_le (by omega), List.take_of_length_le (by omega)]

/-- The world of a task of the first user that is due at an hour. -/
def dueWorld (n : Int) : World := withTask { clock := sampleHour 0 } (sampleTask "task_1" n)

theorem dueWorld_outages (n : Int) : (dueWorld n).outages = [] := run_outages _ _

/-- The queries find the task by the score of its due date. -/
theorem queries_dueWorld {n : Int} (h : Moment.shows (sampleHour n).wall = true) (moment stop : Moment) :
    ∃ late soon, (overdue "user_1" moment).run (dueWorld n) = (.ok late, dueWorld n)
      ∧ (dueWithin "user_1" moment stop).run (dueWorld n) = (.ok soon, dueWorld n)
      ∧ (Scored.scoreBefore (sampleHour n).timestamp moment.timestamp = true →
        sampleTask "task_1" n ∈ late)
      ∧ ((Scored.atLeast moment.timestamp (sampleHour n).timestamp &&
          Scored.atLeast (sampleHour n).timestamp stop.timestamp) = true →
        sampleTask "task_1" n ∈ soon) := by
  obtain ⟨-, htracked⟩ := tracked_withTask h
  obtain ⟨members, hkeeps, hranks⟩ := htracked.due "user_1"
  have hm : (Function.update (fun _ => none) "task_1" (some (sampleTask "task_1" n)))
      (sampleTask "task_1" n).id = some (sampleTask "task_1" n) := rfl
  have hfind : ∀ f : Float → Bool,
      sampleTask "task_1" n ∈ openTasks _ (members.filter fun a => f a.score) ↔ _ := fun f =>
    htracked.documents.mem_openTasks hm (fun a ha => hranks.own a _ (ha ▸ hm) rfl) f
  refine ⟨_, _, htracked.documents.run_overdue (dueWorld_outages n) hkeeps moment,
    htracked.documents.run_dueWithin (dueWorld_outages n) hkeeps moment stop, fun hscore => ?_,
    fun hscore => ?_⟩
  · exact (hfind fun a => Scored.scoreBefore a moment.timestamp).mpr ⟨rfl, _, rfl, hscore⟩
  · exact (hfind fun a => Scored.atLeast moment.timestamp a && Scored.atLeast a stop.timestamp).mpr
      ⟨rfl, _, rfl, hscore⟩

theorem length_eq_of_run {w : World} {query : Program (List Task)} {ts : List Task} {n : Nat}
    (hrun : query.run w = (.ok ts, w)) (h : (query.run w).1.toOption.map List.length = some n) :
    ts.length = n := by
  rw [hrun] at h
  exact Option.some.inj h

/-- A day after it was due, a task that a scan fires for is called overdue. -/
theorem user_tells_after_day : ∃ late soon,
    ((overdue "user_1" (sampleHour 25)).run (dueWorld 1)).1 = .ok late
      ∧ (.taskOverdue, sampleTask "task_1" 1) ∈ plan 200 late soon
      ∧ (sampleTask "task_1" 1).userId = "user_1"
      ∧ TellsLate (sampleHour 25) (sampleTask "task_1" 1) := by
  have hmoment : (sampleHour 25).Shown := (stamped_sampleHour (by decide)).toShown
  have hstop : daysAfter (sampleHour 25) ({} : Engine).settings.dueSoonDays = .ok (sampleHour 97) := rfl
  obtain ⟨hheld, -⟩ := tracked_withTask (n := 1) (by decide)
  obtain ⟨late', -, hlate', -, hmem, -⟩ :=
    queries_dueWorld (n := 1) (by decide) (sampleHour 25) (sampleHour 97)
  obtain ⟨late, soon, hlate, -, -, htells⟩ := user_tells hheld hmoment hstop
    ((user {} "user_1" (sampleHour 25)).ends_trace (dueWorld 1)) (World.answers_trace _ _)
  have heq : late' = late := Except.ok.inj ((congrArg Prod.fst hlate').symm.trans hlate)
  subst heq
  have hone : late'.length = 1 := length_eq_of_run hlate' (by decide +kernel)
  have hplan : (.taskOverdue, sampleTask "task_1" 1) ∈ plan 200 late' soon := by
    refine List.mem_append_left _ (List.mem_map.mpr ⟨_, ?_, rfl⟩)
    rw [List.take_of_length_le (by omega)]
    exact hmem (by decide +kernel)
  rcases htells _ hplan rfl with ⟨-, htells⟩ | ⟨htrigger, -⟩
  · exact ⟨late', soon, hlate, hplan, rfl, htells⟩
  · cases htrigger

/-- An hour in the year 9000. -/
def farHour : Int := 61351968

/-- The first microsecond after that hour. -/
def afterFarHour : Moment := ⟨(sampleHour farHour).wall + 1, some 0⟩

/-- The days in which tasks are due soon from then on end here. -/
def farStop : Moment := ⟨afterFarHour.wall + 3 * Moment.day, some 0⟩

/-- An hour after a task was due, a scan fires for it as overdue, and the context says that it is not. In
the year 9000 a scan fires for a task as due soon, a microsecond after it was due, and the context counts
a day less than none until then. -/
theorem told_otherwise :
    (Tended (dueWorld 1) ∧ ∃ firings,
      ((user {} "user_1" (sampleHour 2)).run (dueWorld 1)).1 = .ok (reportOf "user_1" firings)
        ∧ (∀ x ∈ firings, x.Runs {} (sampleHour 2))
        ∧ (.taskOverdue, sampleTask "task_1" 1) ∈ firings.map Firing.target
        ∧ (found (sampleHour 2) .taskOverdue (sampleTask "task_1" 1)).context.get? "is_overdue" =
          some (.bool false))
      ∧ Tended (dueWorld farHour) ∧ ∃ firings,
        ((user {} "user_1" afterFarHour).run (dueWorld farHour)).1 = .ok (reportOf "user_1" firings)
          ∧ (∀ x ∈ firings, x.Runs {} afterFarHour)
          ∧ (.dueDateApproaching, sampleTask "task_1" farHour) ∈ firings.map Firing.target
          ∧ (found afterFarHour .dueDateApproaching (sampleTask "task_1" farHour)).context.get?
            "days_until_due" = some (.int (-1)) := by
  refine ⟨⟨(tracked_withTask (by decide)).1, ?_⟩, (tracked_withTask (by decide)).1, ?_⟩
  · obtain ⟨late, soon, hlate, hsoon, hmem, -⟩ :=
      queries_dueWorld (n := 1) (by decide) (sampleHour 2) (sampleHour 74)
    have hlate' : late.length = 1 := length_eq_of_run hlate (by decide +kernel)
    have hsoon' : soon.length = 0 := length_eq_of_run hsoon (by decide +kernel)
    obtain ⟨firings, hrun, hruns, htargets⟩ := fires_all (e := {}) (dueWorld_outages 1) rfl hlate hsoon
      (by rw [hlate', hsoon']; decide)
    refine ⟨firings, hrun, hruns, ?_, ?_⟩
    · rw [htargets]
      exact List.mem_append_left _ (List.mem_map.mpr ⟨_, hmem (by decide +kernel), rfl⟩)
    · rw [(get?_context _ _ rfl).2.2]
      exact congrArg (fun b => some (Value.bool b)) (by decide +kernel)
  · obtain ⟨late, soon, hlate, hsoon, -, hmem⟩ :=
      queries_dueWorld (n := farHour) (by decide) afterFarHour farStop
    have hlate' : late.length = 0 := length_eq_of_run hlate (by decide +kernel)
    have hsoon' : soon.length = 1 := length_eq_of_run hsoon (by decide +kernel)
    obtain ⟨firings, hrun, hruns, htargets⟩ :=
      fires_all (e := {}) (dueWorld_outages farHour) rfl hlate hsoon (by rw [hlate', hsoon']; decide)
    refine ⟨firings, hrun, hruns, ?_, ?_⟩
    · rw [htargets]
      exact List.mem_append_right _ (List.mem_map.mpr ⟨_, hmem (by decide +kernel), rfl⟩)
    · rw [(get?_context _ _ rfl).2.1]
      exact congrArg (fun n => some (Value.int n)) (by decide +kernel)

end Sample

end Scan

end TaskAutomation
