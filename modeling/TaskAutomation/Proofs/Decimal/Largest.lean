import TaskAutomation.Proofs.Decimal.Nearest

/-!
# Integers beyond all doubles

* `isFinite_withSign` : bits stand for a finite number just when they lie below those of infinity;
* `roundDiv_lt_iff` : when a quotient rounds below an even bound, a half going up to it;
* `ofInt?_eq_none_iff` : an integer has no double just when its absolute value reaches
  `(2 ^ 54 - 1) * 2 ^ 970`, the midpoint between the largest double and `2 ^ 1024`.
-/

namespace TaskAutomation.Decimal

theorem isFinite_withSign (negative : Bool) {bits : Nat} (h : bits ≤ 2047 * Binary.hidden) :
    (Binary.ofFloat (Float.ofBits (withSign negative bits))).isFinite = true ↔
      bits < 2047 * Binary.hidden := by
  constructor
  · intro hfinite
    by_contra hlarge
    have hinfinity : bits = 2047 * Binary.hidden := by omega
    subst hinfinity
    have hkept := toBits_ofBits (withSign_le negative h)
    have hinfinite : Binary.ofFloat (Float.ofBits (withSign negative (2047 * Binary.hidden))) =
        .infinite negative := by
      unfold Binary.ofFloat
      rw [hkept]
      cases negative <;> decide +kernel
    rw [hinfinite] at hfinite
    cases hfinite
  · intro hsmall
    have hrank := Binary.rank_withSign negative hsmall
    have hnumber := ofFloat_ofBits_ne_nan (withSign_le negative h)
    cases hbinary : Binary.ofFloat (Float.ofBits (withSign negative bits)) with
    | finite s m e => rfl
    | nan => exact absurd hbinary hnumber
    | infinite s =>
      -- infinities stand above or below all finite numbers
      rw [hbinary] at hrank
      have hzero : signed s 1 = 0 := congrArg (fun r => (ofLex r).1) hrank
      cases s <;> cases hzero

/-- A quotient rounds below an even bound when it is less than the bound by more than a half. -/
theorem roundDiv_lt_iff {num den k : Nat} (hden : 0 < den) (hk : 0 < k) :
    roundDiv num den < 2 * k ↔ 2 * num < (4 * k - 1) * den := by
  have hsplit : num = den * (num / den) + num % den := (Nat.div_add_mod num den).symm
  have hrest : num % den < den := Nat.mod_lt num hden
  have hfactor : (4 * k - 1) * den = den * (2 * (2 * k - 1)) + den := by
    have : 4 * k - 1 = 2 * (2 * k - 1) + 1 := by omega
    rw [this]
    ring
  unfold roundDiv
  generalize num / den = q at *
  generalize num % den = r at *
  rw [hfactor, hsplit]
  rcases Nat.lt_trichotomy q (2 * k - 1) with hlow | rfl | hhigh
  · have hle : den * (q + 1) ≤ den * (2 * k - 1) := Nat.mul_le_mul_left den (by omega)
    have hquot : den * (2 * (2 * k - 1)) = 2 * (den * (2 * k - 1)) := by ring
    have hnext : den * (q + 1) = den * q + den := by ring
    refine iff_of_true ?_ (by omega)
    dsimp only
    split
    · omega
    · split <;> omega
  · have hquot : den * (2 * (2 * k - 1)) = 2 * (den * (2 * k - 1)) := by ring
    -- the last integer below the bound is odd, so a half goes up
    dsimp only
    split
    · exact iff_of_true (by omega) (by omega)
    · split
      · exact iff_of_false (by omega) (by omega)
      · exact iff_of_false (by omega) (by omega)
  · have hle : den * (2 * k) ≤ den * q := Nat.mul_le_mul_left den (by omega)
    have hquot : den * (2 * (2 * k - 1)) + den < 2 * (den * (2 * k)) := by
      have : 2 * (den * (2 * k)) = den * (2 * (2 * k - 1)) + den + den := by
        have : 2 * (2 * k) = 2 * (2 * k - 1) + 1 + 1 := by omega
        calc 2 * (den * (2 * k)) = den * (2 * (2 * k)) := by ring
          _ = den * (2 * (2 * k - 1)) + den + den := by rw [this]; ring
      omega
    refine iff_of_false ?_ (by omega)
    dsimp only
    split
    · omega
    · split <;> omega

theorem nearestExponent_one {num : Nat} (hnum : 0 < num) :
    nearestExponent num 1 = (num.log2 : ℤ) - 52 := by
  rw [nearestExponent_eq hnum Nat.one_pos, Nat.cast_one, div_one, Int.log_natCast, Nat.log2_eq_log_two]
  omega

theorem two_pow_lt_midpoint (k : Nat) : 2 ^ (53 + k) < (2 ^ 54 - 1) * 2 ^ k := by
  rw [pow_add]
  exact Nat.mul_lt_mul_of_pos_right (by norm_num) (Nat.two_pow_pos k)

theorem midpoint_lt_two_pow (k : Nat) : (2 ^ 54 - 1) * 2 ^ k < 2 ^ (54 + k) := by
  rw [pow_add]
  exact Nat.mul_lt_mul_of_pos_right (by norm_num) (Nat.two_pow_pos k)

theorem twice_midpoint (k : Nat) : 2 * ((2 ^ 54 - 1) * 2 ^ k) = (4 * 2 ^ 52 - 1) * 2 ^ (k + 1) := by
  rw [pow_succ]
  norm_num
  ring

/-- An integer rounds to infinity from the midpoint above the largest double on. -/
theorem nearestBits_lt_iff {num : Nat} (hnum : 0 < num) :
    nearestBits num 1 < 2047 * Binary.hidden ↔ num < (2 ^ 54 - 1) * 2 ^ 970 := by
  have hexponent := nearestExponent_one hnum
  have hmost := nearestCoefficient_le hnum Nat.one_pos
  have hleast := hidden_le_nearestCoefficient hnum Nat.one_pos
  -- the large powers stay symbols: nothing below evaluates them
  obtain ⟨k, hk⟩ : ∃ k, k = 970 := ⟨970, rfl⟩
  rw [nearestBits_eq, min_lt_iff, or_iff_left (lt_irrefl _), ← hk]
  rcases Nat.lt_trichotomy num.log2 (53 + k) with hlow | hlast | hhigh
  · have hbelow : num < 2 ^ (53 + k) := (Nat.log2_lt hnum.ne').mp hlow
    refine iff_of_true ?_ (hbelow.trans (two_pow_lt_midpoint k))
    unfold bitsOf
    unfold Binary.hidden at *
    split <;> omega
  · have hexponent : nearestExponent num 1 = (k + 1 : Nat) := by omega
    have hleast := hleast (by omega)
    have hcoefficient : nearestCoefficient num 1 = roundDiv num (2 ^ (k + 1)) := by
      have hnumerator : (-(↑(k + 1) : ℤ)).toNat = 0 := by omega
      unfold nearestCoefficient scaleUp
      rw [hexponent, hnumerator, Int.toNat_natCast, one_mul]
      show roundDiv (num * 1) (2 ^ (k + 1)) = _
      rw [mul_one]
    have hround : roundDiv num (2 ^ (k + 1)) < 2 * 2 ^ 52 ↔
        2 * num < (4 * 2 ^ 52 - 1) * 2 ^ (k + 1) :=
      roundDiv_lt_iff (Nat.two_pow_pos (k + 1)) (Nat.two_pow_pos 52)
    rw [← twice_midpoint, Nat.mul_lt_mul_left Nat.two_pos] at hround
    rw [← hround, ← hcoefficient, hexponent]
    unfold bitsOf
    unfold Binary.hidden at *
    split <;> omega
  · have habove : 2 ^ (54 + k) ≤ num := (Nat.le_log2 hnum.ne').mp (by omega)
    have hleast := hleast (by omega)
    refine iff_of_false ?_ (Nat.not_lt_of_lt ((midpoint_lt_two_pow k).trans_le habove))
    unfold bitsOf
    unfold Binary.hidden at *
    split <;> omega

/-- An integer has no double just when it lies at or beyond that midpoint. -/
theorem ofInt?_eq_none_iff (n : Int) : ofInt? n = none ↔ (2 ^ 54 - 1) * 2 ^ 970 ≤ n.natAbs := by
  have hbits : (if n.natAbs = 0 then 0 else nearestBits n.natAbs 1) ≤ 2047 * Binary.hidden := by
    split
    · exact Nat.zero_le _
    · exact Nat.min_le_right _ _
  have hfinite := isFinite_withSign (decide (n < 0)) hbits
  rw [← nearest_eq] at hfinite
  have hbelow : (if n.natAbs = 0 then 0 else nearestBits n.natAbs 1) < 2047 * Binary.hidden ↔
      n.natAbs < (2 ^ 54 - 1) * 2 ^ 970 := by
    by_cases hzero : n.natAbs = 0
    · rw [if_pos hzero, hzero]
      have hsome (k : Nat) : 0 < (2 ^ 54 - 1) * 2 ^ k :=
        Nat.mul_pos (by norm_num) (Nat.two_pow_pos k)
      exact iff_of_true (by decide) (hsome 970)
    · rw [if_neg hzero]
      exact nearestBits_lt_iff (Nat.pos_of_ne_zero hzero)
  rw [← not_lt, ← hbelow, ← hfinite]
  unfold ofInt?
  dsimp only
  split
  · next h => simp [h]
  · next h => simp [h]

end TaskAutomation.Decimal
