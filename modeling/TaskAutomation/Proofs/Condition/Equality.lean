import Mathlib.Logic.Relation
import TaskAutomation.Proofs.Conjunction
import TaskAutomation.Proofs.Value.Equality
import TaskAutomation.Proofs.Value.Finite

/-!
# What equality tells apart

Equality looks at booleans before all else, and only then at what is inside lists and objects, where a
boolean counts as a number.

* `Confused` : inside two values, at the same place, a boolean stands against the number it counts as;
* `equality_exact` : of finite numbers, equality is that of structure, unless two values are confused.
-/

namespace TaskAutomation.Condition

open Value (Equal Opposite)

/-- A boolean stands against the number that it counts as, at one place in two lists or objects. -/
def Confused (actual expected : Value) : Prop :=
  ∃ v w q, Relation.TransGen Opposite (actual, expected) (v, w) ∧ isBool v ≠ isBool w ∧
    v.worth? = some q ∧ w.worth? = some q

theorem worth?_of_rational? {v : Value} {q : ℚ} (h : v.rational? = some q) : v.worth? = some q := by
  cases v with
  | bool b => cases h
  | _ => exact h

theorem rational?_of_worth? {v : Value} {q : ℚ} (hbool : isBool v = false) (h : v.worth? = some q) :
    v.rational? = some q := by
  cases v with
  | bool b => cases hbool
  | _ => exact h

theorem equal_of_worth? {v w : Value} {q : ℚ} (hbool : isBool v = isBool w) (hv : v.worth? = some q)
    (hw : w.worth? = some q) : Equal Value.rational? v w := by
  cases hv' : isBool v with
  | false => exact .number (rational?_of_worth? hv' hv) (rational?_of_worth? (hbool ▸ hv') hw)
  | true =>
    cases v with
    | bool b =>
      cases w with
      | bool c =>
        have hworth : (if b then (1 : ℚ) else 0) = if c then 1 else 0 :=
          Option.some.inj (hv.trans hw.symm)
        have hbc : b = c := by cases b <;> cases c <;> simp_all
        exact hbc ▸ .bool b
      | _ => cases hbool
    | _ => cases hv'

theorem isBool_of_equal {v w : Value} (h : Equal Value.rational? v w) : isBool v = isBool w := by
  cases h with
  | number hv hw =>
    cases v with
    | bool b => cases hv
    | _ =>
      cases w with
      | bool c => cases hw
      | _ => rfl
  | _ => rfl

/-- Confusion is at a place directly inside the values, or further below. -/
theorem Confused.inside {v w : Value} (h : Confused v w) : ∃ x y, Opposite (v, w) (x, y) ∧
    (isBool x ≠ isBool y ∨ Confused x y) := by
  obtain ⟨x, y, q, hbelow, hne, hx, hy⟩ := h
  obtain ⟨⟨x', y'⟩, hfirst, hrest⟩ := Relation.TransGen.head'_iff.mp hbelow
  refine ⟨x', y', hfirst, ?_⟩
  rcases Relation.reflTransGen_iff_eq_or_transGen.mp hrest with heq | hrest
  · cases heq
    exact .inl hne
  · exact .inr ⟨x, y, q, hrest, hne, hx, hy⟩

/-- There is nothing inside a value that is neither a list nor an object. -/
theorem not_confused_of_leaf {v w : Value} (hlist : ∀ items, v ≠ .list items)
    (hobj : ∀ fields, v ≠ .obj fields) : ¬ Confused v w := by
  intro h
  obtain ⟨x, y, hinside, -⟩ := h.inside
  cases hinside with
  | item => exact hlist _ rfl
  | field => exact hobj _ rfl

/-- Of finite numbers, the comparison of values is equality of structure where booleans count. -/
theorem same_iff_worth? {v w : Value} (hv : v.keyed = true) (hw : w.keyed = true)
    (hfinite : v.allFinite = true) (hfinite' : w.allFinite = true) :
    v.same w = true ↔ Equal Value.worth? v w := by
  rw [Value.same_iff v w hv hw]
  constructor
  · intro h
    refine Equal.imp (R := fun p => p.1.allFinite = true ∧ p.2.allFinite = true)
      (fun hp hpq => Value.allFinite_inherited.opposite hpq hp) ?_ h ⟨hfinite, hfinite'⟩
    intro x y r hxy hx hy
    obtain ⟨q, hq, rfl⟩ := Value.worth?_of_place? hxy.1 hx
    obtain ⟨q', hq', heq⟩ := Value.worth?_of_place? hxy.2 hy
    cases heq
    exact .number hq hq'
  · exact fun h => h.mono fun _ _ => Value.place?_of_worth?

/-- Equality of structure is one where booleans count. -/
theorem equal_worth?_of_rational? {v w : Value} (h : Equal Value.rational? v w) :
    Equal Value.worth? v w :=
  h.mono (f := id) fun _ _ => worth?_of_rational?

/-- Where booleans count, equality is one of structure if no boolean stands against a number. -/
theorem equal_rational?_of_worth? {v w : Value} (hbool : isBool v = isBool w) (hnot : ¬ Confused v w)
    (h : Equal Value.worth? v w) : Equal Value.rational? v w := by
  -- At every place, this one included, what counts as the same number is a boolean in both or in none.
  refine Equal.imp (R := fun p => ∀ x y q, Relation.ReflTransGen Opposite p (x, y) →
    x.worth? = some q → y.worth? = some q → isBool x = isBool y) ?_ ?_ h ?_
  · exact fun hp hpq x y q hxy => hp x y q (hxy.head hpq)
  · exact fun x y q hxy hx hy => equal_of_worth? (hxy x y q .refl hx hy) hx hy
  · intro x y q hxy hx hy
    rcases Relation.reflTransGen_iff_eq_or_transGen.mp hxy with heq | hbelow
    · cases heq
      exact hbool
    · by_contra hne
      exact hnot ⟨x, y, q, hbelow, hne, hx, hy⟩

theorem eqBool_iff {v w : Value} :
    eqBool v w = true ↔ isBool v = isBool w ∧ v.same w = true := by
  rw [eqBool, Bool.and_eq_true, beq_iff_eq]

/-- Of finite numbers, `=` asks that both sides are booleans or neither is, and for the same structure
where a boolean counts as a number. So it never misses equality of structure, and it is just that unless
the two sides are confused. -/
theorem equality_exact {actual expected : Value} (hactual : actual.keyed = true)
    (hexpected : expected.keyed = true) (hfinite : actual.allFinite = true)
    (hfinite' : expected.allFinite = true) (path : Option String) (scope : Option Value) :
    ∃ b, holds (some actual) (single .eq expected) path scope = .ok b ∧
      (b = true ↔ isBool actual = isBool expected ∧ Equal Value.worth? actual expected) ∧
      (Equal Value.rational? actual expected → b = true) ∧
      (¬ Confused actual expected → (b = true ↔ Equal Value.rational? actual expected)) := by
  have hmeans : eqBool actual expected = true ↔
      isBool actual = isBool expected ∧ Equal Value.worth? actual expected := by
    rw [eqBool_iff, same_iff_worth? hactual hexpected hfinite hfinite']
  have hall : Equal Value.rational? actual expected → eqBool actual expected = true :=
    fun h => hmeans.mpr ⟨isBool_of_equal h, equal_worth?_of_rational? h⟩
  refine ⟨eqBool actual expected, holds_single .eq (some actual) expected path scope, hmeans, hall,
    fun hnot => ⟨fun h => ?_, hall⟩⟩
  obtain ⟨hbool, hcount⟩ := hmeans.mp h
  exact equal_rational?_of_worth? hbool hnot hcount

theorem equality_exact_of_list :
    Equal Value.rational? (.list [.int 1, .str "a"]) (.list [.float 1.0, .str "a"]) := by
  obtain ⟨b, hb, -, -, hexact⟩ := @equality_exact (.list [.int 1, .str "a"])
    (.list [.float 1.0, .str "a"]) rfl rfl rfl rfl none none
  have hnot : ¬ Confused (.list [.int 1, .str "a"]) (.list [.float 1.0, .str "a"]) := by
    intro h
    obtain ⟨x, y, hinside, hxy⟩ := h.inside
    cases hinside with
    | @item _ _ i _ _ hv hw =>
      match i, hv, hw with
      | 0, rfl, rfl => exact hxy.elim (· rfl) (not_confused_of_leaf nofun nofun)
      | 1, rfl, rfl => exact hxy.elim (· rfl) (not_confused_of_leaf nofun nofun)
  have htrue : holds (some (.list [.int 1, .str "a"])) (single .eq (.list [.float 1.0, .str "a"]))
      none none = .ok true := rfl
  exact (hexact hnot).mp (Except.ok.inj (hb.symm.trans htrue))

/-- A list of the number 1 equals a list of `true`. -/
theorem equal_of_nested_bool :
    holds (some (.list [.int 1])) (single .eq (.list [.bool true])) none none = .ok true ∧
      ¬ Equal Value.rational? (.list [.int 1]) (.list [.bool true]) := by
  refine ⟨rfl, fun h => ?_⟩
  cases h with
  | number hv _ => cases hv
  | list _ h =>
    cases h 0 _ _ rfl rfl with
    | number _ hw => cases hw

end TaskAutomation.Condition
