import TaskAutomation.Proofs.Decimal.Order

/-!
# The nearest double

* `abs_roundDiv_sub_le` : a quotient is rounded to an integer by at most a half;
* `nearestExponent_eq` : the exponent that is chosen leaves 53 binary digits for the coefficient;
  `nearestCoefficient_le`, `hidden_le_nearestCoefficient` : it has just these digits, or a carry;
* `magnitude_bitsOf` : the bits that are put together stand for the coefficient at the exponent;
* `rank_nearest` : below `2 ^ k` the nearest double is off by at most `2 ^ (k - 54)`.
-/

namespace TaskAutomation.Decimal

/-! ## Quotients -/

/-- A quotient is rounded by at most a half. -/
theorem abs_roundDiv_sub_le (num : Nat) {den : Nat} (hden : 0 < den) :
    |(roundDiv num den : ℚ) - num / den| ≤ 1 / 2 := by
  have hd : (0 : ℚ) < den := by exact_mod_cast hden
  have hsplit : (num : ℚ) / den = (num / den : Nat) + ((num % den : Nat) / den : ℚ) := by
    have hnum : (num : ℚ) = den * (num / den : Nat) + (num % den : Nat) := by
      exact_mod_cast (Nat.div_add_mod num den).symm
    nth_rewrite 1 [hnum]
    rw [add_div, mul_div_cancel_left₀ _ hd.ne']
  have hpart : ((num % den : Nat) / den : ℚ) ≤ 1 := by
    rw [div_le_one hd]
    exact_mod_cast (Nat.mod_lt num hden).le
  have hhalf : 2 * (num % den) ≤ den ↔ ((num % den : Nat) / den : ℚ) ≤ 1 / 2 := by
    rw [div_le_div_iff₀ hd two_pos, one_mul, mul_comm]
    exact_mod_cast Iff.rfl
  have hhalf' : den ≤ 2 * (num % den) ↔ 1 / 2 ≤ ((num % den : Nat) / den : ℚ) := by
    rw [div_le_div_iff₀ two_pos hd, one_mul, mul_comm]
    exact_mod_cast Iff.rfl
  have hzero : (0 : ℚ) ≤ (num % den : Nat) / den := by positivity
  rw [hsplit, abs_le]
  unfold roundDiv
  dsimp only
  generalize ((num % den : Nat) / den : ℚ) = rest at *
  split
  · next hless =>
    have := hhalf.mp hless.le
    constructor <;> linarith
  · next hless =>
    have hge := hhalf'.mp (not_lt.mp hless)
    split
    · next hmore =>
      push_cast
      constructor <;> linarith
    · next hmore =>
      have hle := hhalf.mp (not_lt.mp hmore)
      have hparity : ((num / den % 2 : Nat) : ℚ) ≤ 1 := by
        exact_mod_cast Nat.le_of_lt_succ (Nat.mod_lt _ two_pos)
      have hparity' : (0 : ℚ) ≤ (num / den % 2 : Nat) := Nat.cast_nonneg _
      rw [Nat.cast_add]
      constructor <;> linarith

/-- What is scaled up on either side of a quotient scales the quotient. -/
theorem scaleUp_div_scaleUp (num den : Nat) (e : Int) :
    (scaleUp num (-e) : ℚ) / scaleUp den e = num / den / 2 ^ e := by
  have hpow : ∀ k : Int, ((Nat.pow 2 k.toNat : Nat) : ℚ) = 2 ^ (k.toNat : ℤ) := by
    intro k
    rw [zpow_natCast]
    exact Nat.cast_pow 2 k.toNat
  have hexponent : ((-e).toNat : ℤ) - e.toNat = -e := by omega
  unfold scaleUp
  rw [Nat.cast_mul, Nat.cast_mul, hpow, hpow, mul_div_mul_comm, ← zpow_sub₀ (by norm_num), hexponent,
    zpow_neg, div_eq_mul_inv _ (_ ^ e)]

theorem scaleUp_pos {n : Nat} (hn : 0 < n) (e : Int) : 0 < scaleUp n e :=
  Nat.mul_pos hn (Nat.two_pow_pos _)

/-! ## Exponents -/

theorem cast_hidden : (Binary.hidden : ℚ) = 2 ^ (52 : ℤ) := by norm_num [Binary.hidden]

/-- The exponent of the double nearest to a quotient. -/
def nearestExponent (num den : Nat) : Int :=
  let guess : Int := (num.log2 : Int) - den.log2 - 52
  let short := scaleUp num (-guess) < scaleUp (den * Binary.hidden) guess
  max (if short then guess - 1 else guess) (-1074)

variable {num den : Nat}

theorem div_cast_pos (hnum : 0 < num) (hden : 0 < den) : (0 : ℚ) < num / den :=
  div_pos (Nat.cast_pos.mpr hnum) (Nat.cast_pos.mpr hden)

theorem log2_bounds {n : Nat} (hn : 0 < n) :
    (2 : ℚ) ^ (n.log2 : ℤ) ≤ n ∧ (n : ℚ) < 2 ^ (n.log2 + 1 : ℤ) :=
  ⟨by exact_mod_cast Nat.log2_self_le hn.ne', by exact_mod_cast Nat.lt_log2_self⟩

/-- The logarithm of a quotient is that of its parts, or one less. -/
theorem log_div_bounds (hnum : 0 < num) (hden : 0 < den) :
    (num.log2 : ℤ) - den.log2 - 1 ≤ Int.log 2 (num / den : ℚ) ∧
      Int.log 2 (num / den : ℚ) ≤ num.log2 - den.log2 := by
  have hquotient := div_cast_pos hnum hden
  obtain ⟨hlow, hhigh⟩ := log2_bounds hnum
  obtain ⟨hlow', hhigh'⟩ := log2_bounds hden
  constructor
  · rw [← Int.zpow_le_iff_le_log (by norm_num) hquotient, Nat.cast_ofNat]
    calc (2 : ℚ) ^ ((num.log2 : ℤ) - den.log2 - 1)
        = 2 ^ (num.log2 : ℤ) / 2 ^ (den.log2 + 1 : ℤ) := by
          rw [← zpow_sub₀ (by norm_num), sub_sub]
      _ ≤ num / den := div_le_div₀ (Nat.cast_nonneg _) hlow (Nat.cast_pos.mpr hden) hhigh'.le
  · rw [← Int.lt_add_one_iff, ← Int.lt_zpow_iff_log_lt (by norm_num) hquotient, Nat.cast_ofNat]
    calc (num / den : ℚ) < 2 ^ (num.log2 + 1 : ℤ) / 2 ^ (den.log2 : ℤ) :=
          div_lt_div₀ hhigh hlow' (zpow_pos (by norm_num) _).le (zpow_pos (by norm_num) _)
      _ = 2 ^ ((num.log2 : ℤ) - den.log2 + 1) := by
          rw [← zpow_sub₀ (by norm_num), sub_add_eq_add_sub]

/-- The exponent leaves 53 binary digits for the coefficient, unless it would be too low. -/
theorem nearestExponent_eq (hnum : 0 < num) (hden : 0 < den) :
    nearestExponent num den = max (Int.log 2 (num / den : ℚ) - 52) (-1074) := by
  obtain ⟨hlow, hhigh⟩ := log_div_bounds hnum hden
  have hshort : ∀ guess : Int, scaleUp num (-guess) < scaleUp (den * Binary.hidden) guess ↔
      Int.log 2 (num / den : ℚ) < guess + 52 := by
    intro guess
    have hpos : (0 : ℚ) < scaleUp (den * Binary.hidden) guess := by
      exact_mod_cast scaleUp_pos (Nat.mul_pos hden (by decide)) guess
    rw [← Int.lt_zpow_iff_log_lt (by norm_num) (div_cast_pos hnum hden), ← Nat.cast_lt (α := ℚ),
      ← div_lt_one hpos, scaleUp_div_scaleUp, div_lt_one (zpow_pos (by norm_num) _), Nat.cast_mul,
      cast_hidden, ← div_div, div_lt_iff₀ (zpow_pos (by norm_num) _), ← zpow_add₀ (by norm_num),
      Nat.cast_ofNat]
  unfold nearestExponent
  simp only [hshort]
  split <;> omega

/-! ## Bits -/

/-- The coefficient of the double nearest to a quotient. -/
def nearestCoefficient (num den : Nat) : Nat :=
  roundDiv (scaleUp num (-nearestExponent num den)) (scaleUp den (nearestExponent num den))

theorem abs_nearestCoefficient_sub_le (num : Nat) (hden : 0 < den) :
    |(nearestCoefficient num den : ℚ) - num / den / 2 ^ nearestExponent num den| ≤ 1 / 2 := by
  rw [← scaleUp_div_scaleUp]
  exact abs_roundDiv_sub_le _ (scaleUp_pos hden _)

/-- The coefficient has 53 binary digits at most, or it is the first with 54. -/
theorem nearestCoefficient_le (hnum : 0 < num) (hden : 0 < den) :
    nearestCoefficient num den ≤ 2 * Binary.hidden := by
  have hbelow : (num / den / 2 ^ nearestExponent num den : ℚ) < 2 * Binary.hidden := by
    rw [cast_hidden, ← zpow_one_add₀ (by norm_num), div_lt_iff₀ (zpow_pos (by norm_num) _),
      ← zpow_add₀ (by norm_num), ← Nat.cast_ofNat,
      Int.lt_zpow_iff_log_lt (by norm_num) (div_cast_pos hnum hden), nearestExponent_eq hnum hden]
    omega
  have hround := (abs_le.mp (abs_nearestCoefficient_sub_le num hden)).2
  have hless : (nearestCoefficient num den : ℚ) < 2 * Binary.hidden + 1 := by linarith
  exact Nat.le_of_lt_succ (by exact_mod_cast hless)

/-- Above the lowest exponent the coefficient has all its digits. -/
theorem hidden_le_nearestCoefficient (hnum : 0 < num) (hden : 0 < den)
    (hexponent : nearestExponent num den ≠ -1074) :
    Binary.hidden ≤ nearestCoefficient num den := by
  have habove : (Binary.hidden : ℚ) ≤ num / den / 2 ^ nearestExponent num den := by
    rw [nearestExponent_eq hnum hden] at hexponent ⊢
    rw [cast_hidden, le_div_iff₀ (zpow_pos (by norm_num) _), ← zpow_add₀ (by norm_num),
      ← Nat.cast_ofNat, Int.zpow_le_iff_le_log (by norm_num) (div_cast_pos hnum hden)]
    omega
  have hround := (abs_le.mp (abs_nearestCoefficient_sub_le num hden)).1
  have hless : (Binary.hidden : ℚ) < nearestCoefficient num den + 1 := by linarith
  exact Nat.le_of_lt_succ (by exact_mod_cast hless)

/-- The bits of a double with an exponent and a coefficient. -/
def bitsOf (e : Int) (m : Nat) : Nat :=
  if m < Binary.hidden then m else (e + 1075).toNat * Binary.hidden + (m - Binary.hidden)

theorem nearestBits_eq (num den : Nat) : nearestBits num den =
    min (bitsOf (nearestExponent num den) (nearestCoefficient num den)) (2047 * Binary.hidden) := rfl

/-- A coefficient that is too large by one passes on to the exponent. -/
theorem magnitude_bitsOf {e : Int} {m : Nat} (he : -1074 ≤ e) (hm : m ≤ 2 * Binary.hidden)
    (hlow : e ≠ -1074 → Binary.hidden ≤ m) : Binary.magnitude (bitsOf e m) = m * 2 ^ e := by
  unfold bitsOf
  split
  · next hsmall =>
    have hlowest : e = -1074 := by_contra fun hne => absurd (hlow hne) (not_le.mpr hsmall)
    rw [Binary.magnitude, if_pos (Nat.div_eq_of_lt hsmall), hlowest]
  · next hlarge =>
    rcases hm.lt_or_eq with hless | rfl
    · have hquotient : ((e + 1075).toNat * Binary.hidden + (m - Binary.hidden)) / Binary.hidden =
          (e + 1075).toNat := by
        unfold Binary.hidden at *
        omega
      have hrest : ((e + 1075).toNat * Binary.hidden + (m - Binary.hidden)) % Binary.hidden +
          Binary.hidden = m := by
        unfold Binary.hidden at *
        omega
      rw [Binary.magnitude, hquotient, hrest, if_neg (by omega)]
      congr 2
      omega
    · have hquotient : ((e + 1075).toNat * Binary.hidden + (2 * Binary.hidden - Binary.hidden)) /
          Binary.hidden = (e + 1075).toNat + 1 := by
        unfold Binary.hidden
        omega
      have hrest : ((e + 1075).toNat * Binary.hidden + (2 * Binary.hidden - Binary.hidden)) %
          Binary.hidden = 0 := by
        unfold Binary.hidden
        omega
      have hexponent : (((e + 1075).toNat + 1 : Nat) : ℤ) - 1075 = 1 + e := by omega
      rw [Binary.magnitude, hquotient, hrest, if_neg (by omega), hexponent, zero_add,
        zpow_add₀ (by norm_num), zpow_one, ← mul_assoc]
      push_cast
      ring

/-! ## Errors -/

/-- Rounding is off by at most half a unit of the last place. -/
theorem abs_magnitude_nearest_sub_le (hnum : 0 < num) (hden : 0 < den) :
    |Binary.magnitude (bitsOf (nearestExponent num den) (nearestCoefficient num den)) - num / den| ≤
      2 ^ (nearestExponent num den - 1) := by
  have hunit : (0 : ℚ) < 2 ^ nearestExponent num den := zpow_pos (by norm_num) _
  have hlowest : -1074 ≤ nearestExponent num den := le_max_right _ _
  rw [magnitude_bitsOf hlowest (nearestCoefficient_le hnum hden)
    (hidden_le_nearestCoefficient hnum hden)]
  calc |(nearestCoefficient num den : ℚ) * 2 ^ nearestExponent num den - num / den|
      = |(nearestCoefficient num den : ℚ) - num / den / 2 ^ nearestExponent num den|
          * 2 ^ nearestExponent num den := by
        rw [← abs_of_pos hunit, ← abs_mul, abs_of_pos hunit, sub_mul, div_mul_cancel₀ _ hunit.ne']
    _ ≤ 1 / 2 * 2 ^ nearestExponent num den :=
        mul_le_mul_of_nonneg_right (abs_nearestCoefficient_sub_le num hden) hunit.le
    _ = 2 ^ (nearestExponent num den - 1) := by
        rw [zpow_sub_one₀ (by norm_num), one_div, mul_comm]

/-- The logarithm of a quotient below `2 ^ k`. -/
theorem log_lt_of_lt (hnum : 0 < num) (hden : 0 < den) {k : ℤ} (hbelow : (num / den : ℚ) < 2 ^ k) :
    Int.log 2 (num / den : ℚ) < k := by
  rw [← Int.lt_zpow_iff_log_lt (by norm_num) (div_cast_pos hnum hden), Nat.cast_ofNat]
  exact hbelow

/-- A quotient below `2 ^ 1023` has a finite double. -/
theorem bitsOf_nearest_lt (hnum : 0 < num) (hden : 0 < den)
    (hbelow : (num / den : ℚ) < 2 ^ (1023 : ℤ)) :
    bitsOf (nearestExponent num den) (nearestCoefficient num den) < 2047 * Binary.hidden := by
  have hlog := log_lt_of_lt hnum hden hbelow
  have hexponent := nearestExponent_eq hnum hden
  have hcoefficient := nearestCoefficient_le hnum hden
  unfold bitsOf
  unfold Binary.hidden at *
  split <;> omega

/-- The double nearest to a quotient below `2 ^ k` is off by at most half a unit of its last place,
`2 ^ (k - 54)`. -/
theorem rank_nearest (negative : Bool) (num : Nat) (hden : 0 < den) {k : ℤ} (hlow : -1021 ≤ k)
    (hhigh : k ≤ 1023) (hbelow : (num / den : ℚ) < 2 ^ k) :
    ∃ x : ℚ, (Binary.ofFloat (nearest negative num den)).rank = toLex (0, x)
      ∧ |x - signed negative num / den| ≤ 2 ^ (k - 54) := by
  rw [nearest_eq]
  rcases Nat.eq_zero_or_pos num with rfl | hnum
  · rw [if_pos rfl]
    refine ⟨_, Binary.rank_withSign negative (by decide), ?_⟩
    rw [show Binary.magnitude 0 = 0 by simp [Binary.magnitude],
      show signed negative 0 = 0 by cases negative <;> rfl, mul_zero, Int.cast_zero, zero_div,
      sub_zero, abs_zero]
    exact (zpow_pos (by norm_num) _).le
  · have hlog := log_lt_of_lt hnum hden hbelow
    have hexponent := nearestExponent_eq hnum hden
    have hbits := bitsOf_nearest_lt hnum hden
      (hbelow.trans_le (zpow_le_zpow_right₀ (by norm_num) hhigh))
    have hsign : |(signed negative 1 : ℚ)| = 1 := by cases negative <;> simp [signed]
    rw [if_neg hnum.ne', nearestBits_eq, min_eq_left hbits.le]
    refine ⟨_, Binary.rank_withSign negative hbits, ?_⟩
    rw [cast_signed negative num, mul_div_assoc, ← mul_sub, abs_mul, hsign, one_mul]
    refine (abs_magnitude_nearest_sub_le hnum hden).trans ?_
    exact zpow_le_zpow_right₀ (by norm_num) (by omega)

end TaskAutomation.Decimal
