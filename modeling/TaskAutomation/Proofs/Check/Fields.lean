import Mathlib.Order.Defs.LinearOrder
import TaskAutomation.Check.Leaf
import TaskAutomation.Proofs.Calendar.Stamp

/-!
# Checks of fields

* `Checked.seq_eq_ok`, `Checked.andThen_eq_ok` : a check that joins others passes just when they do;
* `required_of_get?`, `optional_of_get?` : a field that is there passes when its value does;
  `get?_of_required`, `get?_of_optional` : where the result of a field comes from;
* `itemsFrom_map`, `itemsAtLeast_map` : a list passes item by item;
* `boundedNumber_of_broken?`, `broken?_of_boundedNumber` : a number passes just when it breaks no
  bound;
* `moment_stamp` : a moment is read back from its text, its offset to the minute.
-/

namespace TaskAutomation.Check

open Decimal

variable {α β γ : Type}

namespace Checked

theorem map_eq_ok {f : α → β} {c : Checked α} {b : β} :
    f <$> c = .ok b ↔ ∃ a, c = .ok a ∧ f a = b := by
  cases c <;> simp [Functor.map, map]

theorem seq_eq_ok {f : Checked (α → β)} {c : Checked α} {b : β} :
    f <*> c = .ok b ↔ ∃ g a, f = .ok g ∧ c = .ok a ∧ g a = b := by
  cases f <;> cases c <;> simp [Seq.seq, both]

theorem andThen_eq_ok {c : Checked α} {f : α → Checked β} {b : β} :
    c.andThen f = .ok b ↔ ∃ a, c = .ok a ∧ f a = .ok b := by
  cases c <;> simp [andThen]

theorem under_eq_ok {c : Checked α} {step : Step} {a : α} : c.under step = .ok a ↔ c = .ok a := by
  cases c <;> simp [under]

end Checked

/-! ## Fields -/

variable {s : Setting} {f : Fields} {name : String} {check : Checker α} {v : Value} {a absent : α}

theorem object_eq_ok (h : object s v = .ok f) : v = .obj f := by
  unfold object at h
  split at h <;> cases h
  rfl

theorem record_eq_ok (h : record name s v = .ok f) : v = .obj f := by
  unfold record at h
  split at h <;> cases h
  rfl

theorem required_of_get? (hv : f.get? name = some v) (ha : check s v = .ok a) :
    required s f name check = .ok a := by
  unfold required
  rw [hv]
  exact Checked.under_eq_ok.mpr ha

theorem optional_of_get? (hv : f.get? name = some v) (ha : check s v = .ok a) :
    optional s f name absent check = .ok a := by
  unfold optional
  rw [hv]
  exact Checked.under_eq_ok.mpr ha

theorem required_eq_ok (h : required s f name check = .ok a) : ∃ v, check s v = .ok a := by
  unfold required at h
  split at h
  · next v hv => exact ⟨v, Checked.under_eq_ok.mp h⟩
  · cases h

theorem optional_eq_ok (h : optional s f name absent check = .ok a) :
    a = absent ∨ ∃ v, check s v = .ok a := by
  unfold optional at h
  split at h
  · next v hv => exact .inr ⟨v, Checked.under_eq_ok.mp h⟩
  · cases h
    exact .inl rfl

theorem optional?_eq_ok {a? : Option α} (h : optional? s f name check = .ok a?) :
    ∀ a ∈ a?, ∃ v, check s v = .ok a := by
  intro a ha
  rcases optional_eq_ok h with hnone | ⟨v, hv⟩
  · rw [hnone] at ha
    cases ha
  · unfold nullable at hv
    split at hv
    · cases hv
      cases ha
    · obtain ⟨b, hb, hsome⟩ := Checked.map_eq_ok.mp hv
      rw [← hsome] at ha
      cases ha
      exact ⟨_, hb⟩

/-- A field that has to be there was found and checked. -/
theorem get?_of_required (h : required s f name check = .ok a) :
    ∃ v, f.get? name = some v ∧ check s v = .ok a := by
  unfold required at h
  split at h
  · next v hv => exact ⟨v, hv, Checked.under_eq_ok.mp h⟩
  · cases h

/-- A field that may be absent was found and checked, or was not there. -/
theorem get?_of_optional (h : optional s f name absent check = .ok a) :
    (∃ v, f.get? name = some v ∧ check s v = .ok a) ∨ f.get? name = none ∧ a = absent := by
  unfold optional at h
  split at h
  · next v hv => exact .inl ⟨v, hv, Checked.under_eq_ok.mp h⟩
  · next hnone =>
    cases h
    exact .inr ⟨hnone, rfl⟩

/-! ## Lists -/

theorem itemsFrom_map {show' : β → Value} {read : β → α} {items : List β}
    (h : ∀ b ∈ items, check s (show' b) = .ok (read b)) (n : Nat) :
    itemsFrom check s n (items.map show') = .ok (items.map read) := by
  induction items generalizing n with
  | nil => rfl
  | cons b rest ih =>
    have hrest := ih (fun c hc => h c (List.mem_cons_of_mem b hc)) (n + 1)
    rw [List.map_cons, itemsFrom, hrest, h b List.mem_cons_self]
    rfl

theorem itemsAtLeast_map {least : Nat} {show' : β → Value} {read : β → α} {items : List β}
    (h : ∀ b ∈ items, check s (show' b) = .ok (read b)) (hleast : least ≤ items.length) :
    itemsAtLeast least check s (.list (items.map show')) = .ok (items.map read) := by
  unfold itemsAtLeast Check.items
  rw [Checked.andThen_eq_ok]
  refine ⟨items.map read, itemsFrom_map h 0, ?_⟩
  rw [List.length_map, if_neg (by omega)]

/-- What passed one by one was checked one by one. -/
theorem itemsFrom_eq_ok {n : Nat} {vs : List Value} {as : List α}
    (h : itemsFrom check s n vs = .ok as) : ∀ a ∈ as, ∃ v, check s v = .ok a := by
  induction vs generalizing n as with
  | nil =>
    cases h
    intro a ha
    cases ha
  | cons v rest ih =>
    rw [itemsFrom] at h
    cases hv : check s v with
    | issues found => cases hrest : itemsFrom check s (n + 1) rest <;> rw [hv, hrest] at h <;> cases h
    | ok b =>
      cases hrest : itemsFrom check s (n + 1) rest with
      | issues found =>
        rw [hv, hrest] at h
        cases h
      | ok bs =>
        rw [hv, hrest] at h
        cases h
        intro a ha
        rcases List.mem_cons.mp ha with rfl | ha
        · exact ⟨v, hv⟩
        · exact ih hrest a ha

theorem items_eq_ok {as : List α} (h : items check s v = .ok as) : ∀ a ∈ as, ∃ v, check s v = .ok a := by
  unfold items at h
  split at h
  · exact itemsFrom_eq_ok h
  · cases h

theorem itemsAtLeast_eq_ok {least : Nat} {as : List α}
    (h : itemsAtLeast least check s v = .ok as) :
    least ≤ as.length ∧ ∀ a ∈ as, ∃ v, check s v = .ok a := by
  obtain ⟨bs, hbs, h⟩ := Checked.andThen_eq_ok.mp h
  split at h
  · cases h
  · next hlt =>
    cases h
    exact ⟨by omega, items_eq_ok hbs⟩

/-! ## Leaves -/

theorem textWithin_one (t : String) (h : t ≠ "") : textWithin 1 none s (.str t) = .ok t := by
  have hpos : t.length ≠ 0 := fun hlen => h (String.length_eq_zero_iff.mp hlen)
  show (if t.length < 1 then _ else _) = _
  rw [if_neg (by omega)]

/-- A text is read as itself. -/
theorem eq_of_textWithin {least : Nat} {most : Option Nat} {t : String}
    (h : textWithin least most s v = .ok t) : v = .str t := by
  obtain ⟨u, hu, h⟩ := Checked.andThen_eq_ok.mp h
  have hv : v = .str u := by
    unfold text at hu
    split at hu <;> cases hu
    rfl
  split at h
  · cases h
  · split at h
    · split at h <;> cases h
      exact hv
    · cases h
      exact hv

theorem ne_empty_of_textWithin {t : String} (h : textWithin 1 none s v = .ok t) : t ≠ "" := by
  obtain ⟨u, -, h⟩ := Checked.andThen_eq_ok.mp h
  split at h
  · cases h
  · next hlen =>
    cases h
    rintro rfl
    exact hlen (by decide)

/-- Integers are compared as such. -/
theorem cmp?_ofInt (m n : Int) : (Binary.ofInt m).cmp? (.ofInt n) = some (compare m n) := by
  have hsigned : ∀ k : Int, signed (decide (k < 0)) (scaleUp k.natAbs (0 - 0)) = k := by
    intro k
    have hscale : scaleUp k.natAbs (0 - 0) = k.natAbs := Nat.mul_one _
    rw [hscale, signed]
    split
    · next hk =>
      rw [decide_eq_true_eq] at hk
      omega
    · next hk =>
      rw [decide_eq_true_eq] at hk
      omega
  simp only [Binary.ofInt, Binary.cmp?, hsigned]

/-- A number is at least a bound. -/
theorem ordered_least (n k : Int) : ordered [.gt, .eq] (.ofInt n) (.ofInt k) = decide (k ≤ n) := by
  unfold ordered
  rw [cmp?_ofInt]
  rcases lt_trichotomy n k with h | h | h
  · rw [compare_lt_iff_lt.mpr h, decide_eq_false (by omega)]
    rfl
  · rw [h, compare_eq_iff_eq.mpr rfl, decide_eq_true (Int.le_refl k)]
    rfl
  · rw [compare_gt_iff_gt.mpr h, decide_eq_true (by omega)]
    rfl

theorem broken?_least (k n : Int) :
    Bounds.broken? { least := some k } (.ofInt n) = if k ≤ n then none else some (.below k) := by
  unfold Bounds.broken?
  by_cases h : k ≤ n
  · simp [ordered_least, h]
  · simp [ordered_least, h]

theorem boundedNumber_of_number {b : Bounds} {x : Float} (hx : number s v = .ok x)
    (h : b.broken? (.ofFloat x) = none) : boundedNumber b s v = .ok x := by
  unfold boundedNumber
  rw [Checked.andThen_eq_ok]
  refine ⟨x, hx, ?_⟩
  rw [h]

theorem boundedNumber_of_broken? {b : Bounds} {x : Float} (h : b.broken? (.ofFloat x) = none) :
    boundedNumber b s (.float x) = .ok x := boundedNumber_of_number rfl h

theorem broken?_of_boundedNumber {b : Bounds} {x : Float} (h : boundedNumber b s v = .ok x) :
    b.broken? (.ofFloat x) = none := by
  obtain ⟨y, -, h⟩ := Checked.andThen_eq_ok.mp h
  split at h
  · cases h
  · next hnone =>
    cases h
    exact hnone

theorem boundedInteger_of_broken? {b : Bounds} {n : Int} (h : b.broken? (.ofInt n) = none) :
    boundedInteger b s (.int n) = .ok n := by
  unfold boundedInteger
  rw [Checked.andThen_eq_ok]
  refine ⟨n, rfl, ?_⟩
  rw [h]

theorem broken?_of_boundedInteger {b : Bounds} {n : Int} (h : boundedInteger b s v = .ok n) :
    b.broken? (.ofInt n) = none := by
  obtain ⟨k, -, h⟩ := Checked.andThen_eq_ok.mp h
  split at h
  · cases h
  · next hnone =>
    cases h
    exact hnone

theorem boundedInteger_of_le {k n : Int} (h : k ≤ n) :
    boundedInteger { least := some k } s (.int n) = .ok n :=
  boundedInteger_of_broken? ((broken?_least k n).trans (if_pos h))

theorem le_of_boundedInteger {k n : Int} (h : boundedInteger { least := some k } s v = .ok n) : k ≤ n := by
  have hnone := broken?_of_boundedInteger h
  rw [broken?_least] at hnone
  by_contra hneg
  rw [if_neg hneg] at hnone
  cases hnone

/-- A word that is looked up by name is the name of what is found. -/
theorem eq_of_choice {all : List α} {nameOf : α → String} {choices : List String}
    (h : choice (fun word => all.find? (nameOf · == word)) choices s v = .ok a) :
    v = .str (nameOf a) := by
  unfold choice at h
  split at h
  · next word =>
    split at h
    · next b hb =>
      cases h
      have hname := List.find?_some (p := fun b => nameOf b == word) hb
      exact congrArg Value.str (eq_of_beq hname).symm
    · cases h
  · cases h

/-! ## Moments -/

theorem moment_stamp {m : Moment} (h : m.Shown) : moment s (.str m.stamp) = .ok m.toMinute := by
  show momentOfText m.stamp (.str m.stamp) = _
  unfold momentOfText
  rw [Moment.ofText_stamp h]

theorem stamped_of_moment {m : Moment} (h : moment s v = .ok m) : m.Stamped := by
  have hnumber : ∀ {found : Except Stamp.Fault Moment},
      (∀ m, found = .ok m → m.Stamped) → momentOfNumber found v = .ok m → m.Stamped := by
    intro found hfound h
    unfold momentOfNumber at h
    split at h
    · cases h
      exact hfound _ rfl
    · cases h
  unfold moment at h
  split at h
  · next t =>
    unfold momentOfText at h
    split at h
    · next hm =>
      cases h
      exact Stamp.stamped_of_ofText hm
    · cases h
    · cases h
  · next n =>
    split at h
    · cases h
    · exact hnumber (fun m => Stamp.stamped_of_ofInt) h
  · next x => exact hnumber (fun m => Stamp.stamped_of_ofFloat) h
  · cases h

theorem shown_of_moment {m : Moment} (h : moment s v = .ok m) : m.Shown :=
  (stamped_of_moment h).toShown

/-- A moment in a field that may be absent is in whole minutes from UTC if the one in its place is. -/
theorem stamped_of_optional {absent m : Moment} (habsent : absent.Stamped)
    (h : optional s f name absent moment = .ok m) : m.Stamped := by
  rcases optional_eq_ok h with rfl | ⟨v, hv⟩
  · exact habsent
  · exact stamped_of_moment hv

/-- A moment in whole minutes from UTC is read from its stamp. -/
theorem optional_stamp {absent m : Moment} (hv : f.get? name = some (.str m.stamp)) (h : m.Stamped) :
    optional s f name absent moment = .ok m := by
  refine optional_of_get? hv ?_
  rw [moment_stamp h.toShown, h.toMinute_eq]

theorem momentInUtc_stamp {m : Moment} (h : m.Shown) :
    momentInUtc s (.str m.stamp) = .ok m.toMinute.inUtc := by
  show (moment s (.str m.stamp)).map Moment.inUtc = _
  rw [moment_stamp h]
  rfl

theorem momentInUtc_iso {m : Moment} (h : m.Shown) (hutc : m.offset = some 0) :
    momentInUtc s (.str m.iso) = .ok m := by
  have hmoment : moment s (.str m.iso) = .ok m := by
    show momentOfText m.iso (.str m.iso) = _
    unfold momentOfText
    rw [Moment.ofText_iso h hutc]
  show (moment s (.str m.iso)).map Moment.inUtc = _
  rw [hmoment]
  refine congrArg Checked.ok ?_
  rw [Moment.inUtc, hutc, Option.getD_some, ← hutc]

theorem stamped_of_momentInUtc {m : Moment} (h : momentInUtc s v = .ok m) : m.Stamped := by
  obtain ⟨n, hn, rfl⟩ := Checked.map_eq_ok.mp h
  exact (stamped_of_moment hn).inUtc

theorem aware_of_momentInUtc {m : Moment} (h : momentInUtc s v = .ok m) : m.isNaive = false := by
  obtain ⟨n, -, rfl⟩ := Checked.map_eq_ok.mp h
  rfl

end TaskAutomation.Check
