import TaskAutomation.DueDate
import TaskAutomation.Proofs.Calendar.Stamp

/-!
# Due dates are in UTC

* `Moment.InUtc` : the moments that the clock of UTC can show; `Moment.InUtc.toUtc?` : it shows them as they
  are;
* `DueDate.inUtc_of_resolve` : whatever a due date is given as, it stands for such a moment.
-/

namespace TaskAutomation

/-- The clock of UTC can show the moment, and does. -/
structure Moment.InUtc (m : Moment) : Prop where
  shown : m.Shown
  utc : m.offset = some 0

theorem Moment.InUtc.instant {m : Moment} (h : m.InUtc) : m.instant = m.wall := by
  rw [Moment.instant, h.utc]
  exact Int.sub_zero m.wall

/-- The clock of UTC shows a moment in UTC as it is. -/
theorem Moment.InUtc.toUtc? {m : Moment} (h : m.InUtc) : m.toUtc? = some m := by
  rw [Moment.toUtc?, h.instant, if_pos h.shown.wall, Moment.ofInstant, ← h.utc]

theorem Moment.InUtc.stamped {m : Moment} (h : m.InUtc) : m.Stamped ∧ m.isNaive = false := by
  refine ⟨⟨h.shown, fun o ho => ?_⟩, ?_⟩
  · rw [h.utc] at ho
    cases ho
    rfl
  · rw [Moment.isNaive, h.utc]
    rfl

namespace DueDate

variable {m base : Moment}

theorem inUtc_of_shows {wall : Int} (h : Moment.shows wall = true) :
    Moment.InUtc ⟨wall, some 0⟩ := by
  refine ⟨⟨h, ?_⟩, rfl⟩
  rintro o ⟨⟩
  decide

theorem inUtc_of_toUtc? (h : base.toUtc? = some m) : m.InUtc := by
  unfold Moment.toUtc? at h
  split at h
  · next hshows =>
    cases h
    exact inUtc_of_shows hshows
  · cases h

theorem inUtc_of_add? {micros : Int} (hbase : base.offset = some 0) (h : base.add? micros = some m) :
    m.InUtc := by
  unfold Moment.add? at h
  split at h
  · next hshows =>
    cases h
    rw [hbase]
    exact inUtc_of_shows hshows
  · cases h

/-- Days, weeks and months ahead of a moment in UTC there is another one. -/
theorem inUtc_of_after? {d : Directive} (hbase : base.offset = some 0) (h : d.after? base = some m) :
    m.InUtc := by
  unfold Directive.after? at h
  split at h
  · exact inUtc_of_add? hbase h
  · exact inUtc_of_add? hbase h
  · dsimp only at h
    split at h
    · next hvalid =>
      cases h
      have htime : 0 ≤ base.timeOfDay ∧ base.timeOfDay < Moment.day := by
        unfold Moment.timeOfDay Moment.day Moment.second
        omega
      refine ⟨.ofDate hvalid htime ?_, hbase⟩
      rw [hbase]
      rintro o ⟨⟩
      decide
    · cases h

/-- What a value stands for is a moment in UTC. -/
theorem inUtc_of_resolve {reference : Moment} {v : Value} (h : resolve reference v = some m) :
    m.InUtc := by
  unfold resolve at h
  split at h
  · split at h
    · cases h
    · unfold ofText at h
      dsimp only at h
      split at h
      · obtain ⟨base, hbase, hafter⟩ := Option.bind_eq_some_iff.mp h
        exact inUtc_of_after? (inUtc_of_toUtc? hbase).utc hafter
      · obtain ⟨read, -, hutc⟩ := Option.bind_eq_some_iff.mp h
        exact inUtc_of_toUtc? hutc
  · cases h

end DueDate

end TaskAutomation
