import Mathlib.Data.List.TakeWhile
import TaskAutomation.Proofs.Calendar.Stamp
import TaskAutomation.Proofs.Check.Fields
import TaskAutomation.Proofs.Text.Digit

/-!
# Whole numbers in texts

A whole number that is written in its digits is read back as a field of a query, up to the most digits that a
numeral may have.

* `Check.head?_toDigits` : the digits of a number above zero do not begin with a zero;
* `Check.integerOfText_toString` : they are read back;
* `Check.boundedInteger_toString` : so is a number within bounds.
-/

namespace TaskAutomation.Check

open Decimal

variable {n : Nat}

theorem isDigit_of_mem_digits {c : Char} (hc : c ∈ Nat.toDigits 10 n) : c.isDigit = true :=
  Nat.isDigit_of_mem_toDigits (by decide) (by decide) hc

/-- The digits of a number above zero begin with no zero. -/
theorem head?_toDigits (h : 0 < n) : (Nat.toDigits 10 n).head? ≠ some '0' := by
  induction n using Nat.strongRecOn with
  | ind n ih =>
    by_cases hn : n < 10
    · have hdigits : ∀ k : Fin 10, 0 < k.val → Nat.digitChar k.val ≠ '0' := by decide
      rw [Nat.toDigits_of_lt_base hn]
      exact fun heq => hdigits ⟨n, hn⟩ h (Option.some.inj heq)
    · rw [Nat.toDigits_of_base_le (by decide) (by omega),
        List.head?_append_of_ne_nil _ Nat.toDigits_ne_nil]
      exact ih (n / 10) (by omega) (by omega)

section Digits

variable {cs : List Char} (hdigits : ∀ c ∈ cs, c.isDigit = true)
include hdigits

theorem notMem_of_digits {x : Char} (hx : x.isDigit = false) : x ∉ cs := by
  intro hmem
  rw [hdigits x hmem] at hx
  cases hx

theorem signAt_digits : signAt cs = (false, cs) := by
  unfold signAt
  split
  · exact absurd List.mem_cons_self (notMem_of_digits hdigits rfl)
  · exact absurd List.mem_cons_self (notMem_of_digits hdigits rfl)
  · rfl

theorem withoutPoint_digits : withoutPoint cs = cs := by
  have hpoint : cs.dropWhile (· != '.') = [] :=
    List.dropWhile_eq_nil_iff.mpr fun c hc =>
      bne_iff_ne.mpr fun heq => notMem_of_digits hdigits (x := '.') rfl (heq ▸ hc)
  unfold withoutPoint
  rw [hpoint]
  rfl

theorem withoutUnderscores?_digits : withoutUnderscores? cs = some cs := by
  have hnone := notMem_of_digits hdigits (x := '_') rfl
  have hhead : (cs.head? == some '_') = false :=
    beq_false_of_ne fun heq => hnone (List.mem_of_head? heq)
  have hlast : (cs.getLast? == some '_') = false :=
    beq_false_of_ne fun heq => hnone (List.mem_of_getLast? heq)
  have hpairs : ∀ x ∈ cs.zip (cs.drop 1), x.1 ≠ '_' := fun x hx heq =>
    hnone (heq ▸ (List.of_mem_zip hx).1)
  have hfilter : cs.filter (· != '_') = cs :=
    List.filter_eq_self.mpr fun c hc => bne_iff_ne.mpr fun heq => hnone (heq ▸ hc)
  unfold withoutUnderscores?
  rw [hhead, hlast, List.any_eq_false.mpr, hfilter]
  · rfl
  · intro x hx
    simp [hpairs x hx]

end Digits

/-- Digits are a numeral as they stand. -/
theorem plainNumeral?_toString (h : 0 < n) :
    plainNumeral? (toString n) = some (Nat.toDigits 10 n) := by
  have hdigits : ∀ c ∈ Nat.toDigits 10 n, c.isDigit = true := fun c => isDigit_of_mem_digits
  have hspace : ∀ c ∈ Nat.toDigits 10 n, Text.isSpace c = false := fun c hc =>
    (Bool.or_eq_false_iff.mp (Text.not_isBlank_of_isDigit (hdigits c hc))).1
  have htrim : Text.trimList Text.isSpace (toString n).toList = Nat.toDigits 10 n := by
    rw [show (toString n).toList = Nat.toDigits 10 n by simp [Nat.repr_eq_ofList_toDigits]]
    exact Text.trimList_of_ends (fun c hc => hspace c (List.mem_of_mem_head? hc))
      fun c hc => hspace c (List.mem_of_getLast? hc)
  have hzeros : withoutZeros? (Nat.toDigits 10 n) = some (Nat.toDigits 10 n) := by
    have hhead := head?_toDigits h
    have hfilled : Nat.toDigits 10 n ≠ [] := Nat.toDigits_ne_nil
    revert hhead hfilled hdigits
    cases Nat.toDigits 10 n with
    | nil => exact fun _ _ hfilled => absurd rfl hfilled
    | cons c rest =>
      intro hdigits hhead _
      unfold withoutZeros?
      split
      · next heq => exact absurd (congrArg List.head? heq) hhead
      · next heq =>
        cases heq
        rw [if_pos (hdigits c List.mem_cons_self)]
      · next heq => cases heq
  unfold plainNumeral?
  simp only [htrim, signAt_digits hdigits, hzeros, withoutPoint_digits hdigits,
    withoutUnderscores?_digits hdigits, Option.bind_eq_bind, Option.bind_some, Bool.false_eq_true,
    if_false, Option.pure_def]

/-- A whole number above zero is read back from its digits. -/
theorem integerOfText_toString (h : 0 < n) (hmost : n < 10 ^ maxDigits) (v : Value) :
    integerOfText (toString n) v = .ok n := by
  have hdigits : ∀ c ∈ Nat.toDigits 10 n, c.isDigit = true := fun c => isDigit_of_mem_digits
  have hrun : (Nat.toDigits 10 n).takeWhile Char.isDigit = Nat.toDigits 10 n :=
    List.takeWhile_eq_self_iff.mpr hdigits
  have hlength : (Nat.toDigits 10 n).length ≤ maxDigits :=
    (Nat.length_toDigits_le_iff (by decide) (by decide)).mpr hmost
  have hfront : ((Nat.toDigits 10 n).isEmpty
      || ((Nat.toDigits 10 n).head? == some '0' && 1 < (Nat.toDigits 10 n).length)) = false := by
    rw [beq_false_of_ne (head?_toDigits h), Bool.false_and, Bool.or_false, List.isEmpty_eq_false_iff]
    exact Nat.toDigits_ne_nil
  unfold integerOfText
  rw [plainNumeral?_toString h]
  unfold integerOfNumeral
  simp only [signAt_digits hdigits, hrun, hfront, Bool.false_eq_true, if_false, Nat.add_zero,
    Nat.not_lt.mpr hlength, Nat.lt_irrefl, ofDigits_filterMap hdigits, Nat.ofDigitChars_ten_toDigits]
  rfl

/-- So is one within bounds. -/
theorem boundedInteger_toString {b : Bounds} {s : Setting} (h : 0 < n) (hmost : n < 10 ^ maxDigits)
    (hb : b.broken? (.ofInt n) = none) : boundedInteger b s (.str (toString n)) = .ok (n : Int) := by
  unfold boundedInteger
  rw [Checked.andThen_eq_ok]
  refine ⟨n, integerOfText_toString h hmost _, ?_⟩
  rw [hb]

/-- A number that breaks neither of two bounds lies between them. -/
theorem broken?_between {k m n : Int} :
    Bounds.broken? { least := some k, most := some m } (.ofInt n) = none ↔ k ≤ n ∧ n ≤ m := by
  have hmost : ordered [.lt, .eq] (.ofInt n) (.ofInt m) = decide (n ≤ m) := by
    unfold ordered
    rw [cmp?_ofInt]
    rcases lt_trichotomy n m with h | h | h
    · rw [compare_lt_iff_lt.mpr h, decide_eq_true (by omega)]
      rfl
    · rw [h, compare_eq_iff_eq.mpr rfl, decide_eq_true (Int.le_refl m)]
      rfl
    · rw [compare_gt_iff_gt.mpr h, decide_eq_false (by omega)]
      rfl
  unfold Bounds.broken?
  by_cases hk : k ≤ n <;> by_cases hm : n ≤ m <;> simp [ordered_least, hmost, hk, hm]

end TaskAutomation.Check
