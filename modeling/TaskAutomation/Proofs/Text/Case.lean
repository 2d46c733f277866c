import Mathlib.Data.List.Infix
import TaskAutomation.Text.Case
import TaskAutomation.Text.Search

/-!
# Lower case inside a text

The lower-case form of a character is its own, but for a capital sigma: it has another one where it ends
a word, so a part of a text need not have the form that it has alone.

* `lowerBetween before cs after` : the lower-case form of a text between two others;
  `lowerAfter_append` : a text has that of its parts;
* `KeepsSigmas before cs after` : each capital sigma ends a word there just if it does so in the text
  alone; `lowerBetween_eq_iff` : just then the form is that of the text alone;
* `occursIn_iff` : searching finds what is a part.
-/

namespace TaskAutomation.Text

/-- A capital sigma between two texts ends a word. The text before it is given nearest first, here and
below. -/
def endsWord (before after : List Char) : Bool := meetsCased before && !meetsCased after

/-- The lower-case form of a character between two texts. -/
def lowerOne (before : List Char) (c : Char) (after : List Char) : List Char :=
  if c.toNat == 0x3a3 then
    if endsWord before after then [Char.ofNat 0x3c2] else [Char.ofNat 0x3c3]
  else lowerChar c

/-- The lower-case form of a text between two others. -/
def lowerBetween (before : List Char) : List Char → List Char → List Char
  | [], _ => []
  | c :: cs, after => lowerOne before c (cs ++ after) ++ lowerBetween (c :: before) cs after

/-- Between two others, each capital sigma of a text ends a word just if it does so in the text alone. -/
def KeepsSigmas (before cs after : List Char) : Prop :=
  ∀ start rest, cs = start ++ 'Σ' :: rest →
    endsWord (start.reverse ++ before) (rest ++ after) = endsWord start.reverse rest

theorem lowerAfter_append (before cs after : List Char) :
    lowerAfter before (cs ++ after) =
      lowerBetween before cs after ++ lowerAfter (cs.reverse ++ before) after := by
  induction cs generalizing before with
  | nil => rfl
  | cons c cs ih =>
    rw [List.cons_append, lowerAfter, ih, lowerBetween, List.append_assoc, List.reverse_cons,
      List.append_assoc, List.singleton_append]
    rfl

theorem lowerAfter_eq (before cs : List Char) : lowerAfter before cs = lowerBetween before cs [] := by
  rw [← List.append_nil cs, lowerAfter_append, lowerAfter, List.append_nil, List.append_nil]

theorem toNat_eq_sigma_iff (c : Char) : c.toNat = 0x3a3 ↔ c = 'Σ' :=
  ⟨fun h => Char.ext (UInt32.toNat_inj.mp h), fun h => h ▸ rfl⟩

/-- Alone or not, a character has a lower-case form of the same length, and the same one unless it is a
capital sigma that ends a word in one of the places only. -/
theorem lowerOne_eq_iff (before after before' after' : List Char) (c : Char) :
    (lowerOne before c after).length = (lowerOne before' c after').length ∧
      (lowerOne before c after = lowerOne before' c after' ↔
        (c = 'Σ' → endsWord before after = endsWord before' after')) := by
  unfold lowerOne
  by_cases hc : c.toNat = 0x3a3
  · rw [if_pos (beq_iff_eq.mpr hc), if_pos (beq_iff_eq.mpr hc)]
    simp only [(toNat_eq_sigma_iff c).mp hc, forall_const]
    cases endsWord before after <;> cases endsWord before' after' <;> decide
  · have hne : ¬ (c.toNat == 0x3a3) = true := fun h => hc (eq_of_beq h)
    rw [if_neg hne, if_neg hne]
    exact ⟨rfl, iff_of_true rfl fun h => absurd ((toNat_eq_sigma_iff c).mpr h) hc⟩

theorem length_lowerBetween (before cs after before' after' : List Char) :
    (lowerBetween before cs after).length = (lowerBetween before' cs after').length := by
  induction cs generalizing before before' with
  | nil => rfl
  | cons c cs ih =>
    rw [lowerBetween, lowerBetween, List.length_append, List.length_append, ih,
      (lowerOne_eq_iff _ _ _ _ c).1]

/-- Between two texts a text has the form that it has between two others just if each capital sigma ends
a word at both places or at neither. -/
theorem lowerBetween_eq_lowerBetween_iff (before cs after before' after' : List Char) :
    lowerBetween before cs after = lowerBetween before' cs after' ↔
      ∀ start rest, cs = start ++ 'Σ' :: rest →
        endsWord (start.reverse ++ before) (rest ++ after) =
          endsWord (start.reverse ++ before') (rest ++ after') := by
  induction cs generalizing before before' with
  | nil => exact iff_of_true rfl fun start rest h => by simp at h
  | cons c cs ih =>
    obtain ⟨hlength, hsame⟩ := lowerOne_eq_iff before (cs ++ after) before' (cs ++ after') c
    have hparts : lowerBetween before (c :: cs) after = lowerBetween before' (c :: cs) after' ↔
        lowerOne before c (cs ++ after) = lowerOne before' c (cs ++ after') ∧
          lowerBetween (c :: before) cs after = lowerBetween (c :: before') cs after' :=
      ⟨fun h => List.append_inj h hlength, fun h => congrArg₂ (· ++ ·) h.1 h.2⟩
    rw [hparts, hsame, ih]
    constructor
    · rintro ⟨hc, hcs⟩ start rest hsplit
      rcases List.cons_eq_append_iff.mp hsplit with ⟨rfl, hrest⟩ | ⟨start, rfl, hrest⟩
      · cases hrest
        exact hc rfl
      · simpa using hcs start rest hrest
    · intro h
      refine ⟨fun hc => h [] cs (hc ▸ rfl), fun start rest hsplit => ?_⟩
      simpa using h (c :: start) rest (hsplit ▸ rfl)

theorem lowerBetween_eq_iff (before cs after : List Char) :
    lowerBetween before cs after = lowerAfter [] cs ↔ KeepsSigmas before cs after := by
  rw [lowerAfter_eq, lowerBetween_eq_lowerBetween_iff]
  simp only [List.append_nil, KeepsSigmas]

theorem keepsSigmas_of_not_mem {cs : List Char} (h : 'Σ' ∉ cs) (before after : List Char) :
    KeepsSigmas before cs after := by
  rintro start rest rfl
  exact absurd (List.mem_append_right start List.mem_cons_self) h

/-! ## Parts of a text -/

section Parts
variable (before cs after : List Char)

theorem lowerAfter_prefix_iff :
    lowerAfter [] cs <+: lowerAfter [] (cs ++ after) ↔ KeepsSigmas [] cs after := by
  rw [← lowerBetween_eq_iff, lowerAfter_append]
  have hlength : (lowerAfter [] cs).length = (lowerBetween [] cs after).length := by
    rw [lowerAfter_eq, length_lowerBetween]
  constructor
  · rintro ⟨rest, hrest⟩
    exact (List.append_inj_left hrest hlength).symm
  · intro h
    rw [h]
    exact List.prefix_append _ _

theorem lowerAfter_suffix_iff :
    lowerAfter [] cs <:+ lowerAfter [] (before ++ cs) ↔ KeepsSigmas before.reverse cs [] := by
  rw [← lowerBetween_eq_iff, lowerAfter_append, List.append_nil, lowerAfter_eq before.reverse]
  have hlength : (lowerAfter [] cs).length = (lowerBetween before.reverse cs []).length := by
    rw [lowerAfter_eq, length_lowerBetween]
  constructor
  · rintro ⟨start, hstart⟩
    exact (List.append_inj_right' hstart hlength).symm
  · intro h
    rw [h]
    exact List.suffix_append _ _

theorem lowerAfter_infix (h : KeepsSigmas before.reverse cs after) :
    lowerAfter [] cs <:+: lowerAfter [] (before ++ cs ++ after) := by
  rw [← lowerBetween_eq_iff] at h
  rw [List.append_assoc, lowerAfter_append, lowerAfter_append, List.append_nil, h,
    ← List.append_assoc]
  exact List.infix_append _ _ _

theorem occursIn_iff (needle haystack : List Char) :
    occursIn needle haystack = true ↔ needle <:+: haystack := by
  induction haystack with
  | nil => rw [occursIn, List.isEmpty_iff, List.infix_nil]
  | cons c rest ih =>
    rw [occursIn, Bool.or_eq_true, List.isPrefixOf_iff_prefix, ih, List.infix_cons_iff]

end Parts

end TaskAutomation.Text
