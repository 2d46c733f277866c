import TaskAutomation.Proofs.Conjunction
import TaskAutomation.Proofs.Text.Case

/-!
# Matching texts

The operators on texts compare lower-case forms. A text that is found as it is written is found in lower
case too, unless a capital sigma in it ends a word in one of the places only.

* `holds_text` : what an operator on texts asks of two texts;
* `matchText_contains` : what starts or ends with something contains it, whatever the values;
* `matching_exact` : which texts are found that are there as they are written.
-/

namespace TaskAutomation.Condition

open Text (KeepsSigmas lowerAfter)

/-- Two texts are compared in lower case. -/
theorem holds_text {op : Operator} (h : op.isTextual = true) (text needle : String)
    (path : Option String) (scope : Option Value) :
    holds (some (.str text)) (single op (.str needle)) path scope =
      .ok (textFits op (lowerAfter [] needle.toList) (lowerAfter [] text.toList)) := by
  rw [holds_single, apply_of_isTextual _ _ _ _ _ h]
  rfl

theorem textFits_contains {op : Operator} (hop : op = .startsWith ∨ op = .endsWith)
    {needle haystack : List Char} (h : textFits op needle haystack = true) :
    textFits .contains needle haystack = true := by
  refine (Text.occursIn_iff needle haystack).mpr ?_
  rcases hop with rfl | rfl
  · exact (List.isPrefixOf_iff_prefix.mp h).isInfix
  · exact (List.isSuffixOf_iff_suffix.mp h).isInfix

/-- What starts or ends with something contains it. -/
theorem matchText_contains {op : Operator} (hop : op = .startsWith ∨ op = .endsWith)
    {actual : Option Value} {expected : Value} (h : matchText op actual expected = true) :
    matchText .contains actual expected = true := by
  have hlist : (op == .contains) = false := by
    rcases hop with rfl | rfl <;> rfl
  unfold matchText at h ⊢
  split at h
  · cases h
  · cases h
  · cases h
  · rw [hlist, Bool.false_and] at h
    cases h
  · exact textFits_contains hop h

/-- A text that another starts with, or ends with, is found there just if it keeps its capital sigmas: each
of them ends a word there just if it does so in the text alone. One that keeps them at a place inside
another is contained in it. And any value that starts or ends with something contains it. -/
theorem matching_exact (path : Option String) (scope : Option Value) :
    (∀ (text needle : String) (after : List Char), text.toList = needle.toList ++ after →
      ∃ b, holds (some (.str text)) (single .startsWith (.str needle)) path scope = .ok b ∧
        (b = true ↔ KeepsSigmas [] needle.toList after)) ∧
    (∀ (text needle : String) (before : List Char), text.toList = before ++ needle.toList →
      ∃ b, holds (some (.str text)) (single .endsWith (.str needle)) path scope = .ok b ∧
        (b = true ↔ KeepsSigmas before.reverse needle.toList [])) ∧
    (∀ (text needle : String) (before after : List Char),
      text.toList = before ++ needle.toList ++ after →
      KeepsSigmas before.reverse needle.toList after →
      holds (some (.str text)) (single .contains (.str needle)) path scope = .ok true) ∧
    (∀ (value operand : Value) (op : Operator), op = .startsWith ∨ op = .endsWith →
      holds (some value) (single op operand) path scope = .ok true →
      holds (some value) (single .contains operand) path scope = .ok true) := by
  refine ⟨fun text needle after htext => ?_, fun text needle before htext => ?_,
    fun text needle before after htext hkeeps => ?_, fun value operand op hop htrue => ?_⟩
  · refine ⟨_, holds_text rfl text needle path scope, ?_⟩
    rw [textFits, List.isPrefixOf_iff_prefix, htext, Text.lowerAfter_prefix_iff]
  · refine ⟨_, holds_text rfl text needle path scope, ?_⟩
    rw [textFits, List.isSuffixOf_iff_suffix, htext, Text.lowerAfter_suffix_iff]
  · rw [holds_text rfl, textFits, htext]
    exact congrArg Except.ok
      ((Text.occursIn_iff _ _).mpr (Text.lowerAfter_infix before needle.toList after hkeeps))
  · have htextual : op.isTextual = true := by
      rcases hop with rfl | rfl <;> rfl
    rw [holds_single, apply_of_isTextual _ _ _ _ _ htextual, Except.ok.injEq] at htrue
    rw [holds_single, apply_of_isTextual _ _ _ _ _ rfl, matchText_contains hop htrue]

theorem matching_exact_of_title :
    holds (some (.str "Client Meeting notes")) (single .contains (.str "Meeting")) none none =
        .ok true ∧
      holds (some (.str "Client Meeting notes")) (single .startsWith (.str "Client")) none none =
        .ok true ∧
      holds (some (.str "ΤΕΛΟΣ")) (single .contains (.str "ΛΟΣ")) none none = .ok true ∧
      KeepsSigmas "ΤΕ".toList.reverse "ΛΟΣ".toList [] := by
  obtain ⟨hstarts, hends, hcontains, hvalues⟩ := matching_exact none none
  have hmeeting := hcontains "Client Meeting notes" "Meeting" "Client ".toList " notes".toList rfl
    (Text.keepsSigmas_of_not_mem (by decide) _ _)
  obtain ⟨b, hb, hclient⟩ := hstarts "Client Meeting notes" "Client" " Meeting notes".toList rfl
  obtain rfl : b = true := hclient.mpr (Text.keepsSigmas_of_not_mem (by decide) _ _)
  have hend : holds (some (.str "ΤΕΛΟΣ")) (single .endsWith (.str "ΛΟΣ")) none none = .ok true := rfl
  obtain ⟨b, hb', hkeeps⟩ := hends "ΤΕΛΟΣ" "ΛΟΣ" "ΤΕ".toList rfl
  exact ⟨hmeeting, hb, hvalues _ _ _ (.inr rfl) hend,
    hkeeps.mp (Except.ok.inj (hb'.symm.trans hend))⟩

/-- A text is not found at the start of another that it starts, nor inside it, and one is not found at the
end of another that it ends. -/
theorem unmatched_of_sigma :
    "ΣΥΣ".toList <+: "ΣΥΣΚΕΨΗ".toList ∧
      holds (some (.str "ΣΥΣΚΕΨΗ")) (single .startsWith (.str "ΣΥΣ")) none none = .ok false ∧
      holds (some (.str "ΣΥΣΚΕΨΗ")) (single .contains (.str "ΣΥΣ")) none none = .ok false ∧
      "Σ".toList <:+ "ΤΕΛΟΣ".toList ∧
      holds (some (.str "ΤΕΛΟΣ")) (single .endsWith (.str "Σ")) none none = .ok false :=
  ⟨by decide, rfl, rfl, by decide, rfl⟩

end TaskAutomation.Condition
