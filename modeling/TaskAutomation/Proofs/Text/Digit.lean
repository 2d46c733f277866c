import TaskAutomation.Text.Blank
import TaskAutomation.Text.Digit

/-!
# Digits and blanks

* `Text.digitValue?_of_isDigit` : the digits `0` to `9` have their own value among those of all scripts;
* `Text.trimList_of_ends` : a text with no blank at its ends stays as it is.
-/

namespace TaskAutomation.Text

variable {c : Char}

theorem toNat_of_isDigit (h : c.isDigit = true) : 48 ≤ c.toNat ∧ c.toNat ≤ 57 := by
  rw [Char.isDigit, Bool.and_eq_true, decide_eq_true_eq, decide_eq_true_eq] at h
  exact h

theorem digitValue?_of_isDigit (h : c.isDigit = true) : digitValue? c = asciiDigit? c := by
  obtain ⟨hlow, hhigh⟩ := toNat_of_isDigit h
  have hfind : digitZeros.find? (fun z => z ≤ c.toNat && c.toNat < z + 10) = some 0x30 := by
    refine List.find?_cons_of_pos ?_
    rw [Bool.and_eq_true, decide_eq_true_eq, decide_eq_true_eq]
    omega
  rw [digitValue?, hfind, asciiDigit?, if_pos h]
  rfl

theorem not_isBlank_of_isDigit (h : c.isDigit = true) : isBlank c = false := by
  obtain ⟨hlow, hhigh⟩ := toNat_of_isDigit h
  simp only [isBlank, isSpace, Bool.or_eq_false_iff, Bool.and_eq_false_iff, decide_eq_false_iff_not,
    beq_eq_false_iff_ne]
  omega

theorem dropWhile_of_head {blank : Char → Bool} {cs : List Char} (h : ∀ c ∈ cs.head?, blank c = false) :
    cs.dropWhile blank = cs := by
  cases cs with
  | nil => rfl
  | cons c rest => rw [List.dropWhile_cons, h c rfl, if_neg Bool.false_ne_true]

/-- A text with no blank at its ends stays as it is. -/
theorem trimList_of_ends {blank : Char → Bool} {cs : List Char}
    (hhead : ∀ c ∈ cs.head?, blank c = false) (hlast : ∀ c ∈ cs.getLast?, blank c = false) :
    trimList blank cs = cs := by
  rw [← List.head?_reverse] at hlast
  rw [trimList, dropWhile_of_head hhead, dropWhile_of_head hlast, List.reverse_reverse]

end TaskAutomation.Text
