import TaskAutomation.Proofs.Calendar.Iso
import TaskAutomation.Proofs.DueDate

/-!
# Due dates that have been told

The text that a due date is told as stands for the same moment, whatever reference it is read with.

* `DueDate.resolve_iso` : the text of a moment in UTC stands for this moment;
* `DueDate.inUtc_of_spec` : whatever a due date is given as, it stands for such a moment.
-/

namespace TaskAutomation

open Moment

variable {m reference : Moment}

/-- A text that starts with a digit is no directive. -/
theorem Directive.read?_of_isDigit {c : Char} {rest : List Char} (h : c.isDigit = true) :
    read? (c :: rest) = none := by
  have hplus : c ≠ '+' := by
    rintro rfl
    exact absurd h (by decide)
  rw [read?]
  rintro _ ⟨⟩
  exact hplus rfl

namespace DueDate

theorem resolve_iso (h : m.InUtc) (reference : Moment) : resolve reference (.str m.iso) = some m := by
  have hyear : m.date.year < 10 ^ 4 := by
    obtain ⟨-, hy, -⟩ := of_decide_eq_true (Date.isValid_ofDays h.shown.days_lt)
    exact Nat.lt_succ_of_le hy
  obtain ⟨c, rest, hhead, hc⟩ := Iso.isDigit_head_digits (show 0 < 4 by decide) hyear
  obtain ⟨tail, htext⟩ : ∃ tail, m.iso.toList = c :: tail := by
    rw [Iso.toList_iso h.utc, dateText]
    simp only [String.toList_append, hhead, List.cons_append]
    exact ⟨_, rfl⟩
  have hlast : m.iso.toList.getLast? = some '0' := by
    rw [Iso.toList_iso h.utc, ← List.cons_append, ← List.append_assoc, List.getLast?_append]
    rfl
  have htrim : Text.trimList Text.isBlank m.iso.toList = m.iso.toList := by
    refine Text.trimList_of_ends (fun x hx => ?_) fun x hx => ?_
    · rw [htext] at hx
      cases hx
      exact Text.not_isBlank_of_isDigit hc
    · cases hlast.symm.trans hx
      decide
  have hfilled : m.iso.isEmpty = false := by
    rw [← Bool.not_eq_true, String.isEmpty_iff, ← String.toList_inj, htext]
    exact List.cons_ne_nil _ _
  have hread : Directive.read? m.iso.toList = none := by
    rw [htext]
    exact Directive.read?_of_isDigit hc
  rw [resolve, hfilled, if_neg Bool.false_ne_true, ofText]
  simp only [htrim, hread, String.ofList_toList]
  rw [Iso.read?_iso h.shown h.utc]
  exact h.toUtc?

/-- Whatever a due date is given as, it stands for a moment in UTC. -/
theorem inUtc_of_spec {spec : Spec} (hdate : ∀ d, spec = .date d → d.isValid = true)
    (h : spec.resolve reference = .ok (some m)) : m.InUtc := by
  cases spec with
  | value v => exact inUtc_of_resolve (Except.ok.inj h)
  | date d =>
    cases h
    refine ⟨.ofDate (hdate d rfl) (by decide) ?_, rfl⟩
    rintro _ ⟨⟩
    decide
  | moment given =>
    rw [Spec.resolve] at h
    split at h
    · next t ht =>
      cases h
      exact inUtc_of_toUtc? ht
    · cases h

end DueDate

end TaskAutomation
