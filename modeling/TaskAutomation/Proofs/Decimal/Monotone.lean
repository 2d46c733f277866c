import TaskAutomation.Proofs.Decimal.Nearest

/-!
# Rounding keeps the order

* `roundDiv_mono` : a larger quotient is never rounded to a smaller integer;
* `rounded num den` : the size of the double nearest to a quotient; `rounded_mono` : a larger quotient
  never has a smaller one, whatever exponents the two are rounded at;
* `nearestTo q` : the double nearest to a number with a sign; `nearestTo_mono` : it keeps the order;
  `rank_nearest_eq` : below `2 ^ 1023` the doubles that are computed are these;
* `rank_divide`, `floor?_of_rank` : a double divided by a positive integer, and rounded down, from the
  number that it stands for.
-/

namespace TaskAutomation.Decimal

variable {num den num' den' : Nat}

/-! ## Integers -/

/-- A quotient halfway between two integers is rounded to the even one. -/
theorem roundDiv_even {k : Nat} (hden : 0 < den) (h : 2 * num = (2 * k + 1) * den) :
    roundDiv num den % 2 = 0 := by
  have hexpand : (2 * k + 1) * den = 2 * (k * den) + den := by ring
  have hquotient : num / den = k := by
    refine Nat.div_eq_of_lt_le (by omega) ?_
    rw [Nat.add_mul, Nat.one_mul]
    omega
  have hrest : 2 * (num % den) = den := by
    have hsplit := Nat.div_add_mod num den
    rw [hquotient, Nat.mul_comm den k] at hsplit
    omega
  unfold roundDiv
  rw [hquotient, hrest]
  dsimp only
  rw [if_neg (lt_irrefl den), if_neg (lt_irrefl den)]
  omega

/-- A larger quotient is never rounded to a smaller integer. -/
theorem roundDiv_mono (hden : 0 < den) (hden' : 0 < den') (h : (num / den : ℚ) ≤ num' / den') :
    roundDiv num den ≤ roundDiv num' den' := by
  by_contra hless
  have hnext : (roundDiv num' den' : ℚ) + 1 ≤ roundDiv num den := by exact_mod_cast not_le.mp hless
  have habove := (abs_le.mp (abs_roundDiv_sub_le num hden)).2
  have hbelow := (abs_le.mp (abs_roundDiv_sub_le num' hden')).1
  -- both quotients are the midpoint of the two results, so both results are even
  have hmid : (num / den : ℚ) = roundDiv num' den' + 1 / 2 := by linarith
  have hmid' : (num' / den' : ℚ) = roundDiv num' den' + 1 / 2 := by linarith
  have hresult : roundDiv num den = roundDiv num' den' + 1 := by
    have hsum : (roundDiv num den : ℚ) ≤ roundDiv num' den' + 1 := by linarith
    exact Nat.le_antisymm (by exact_mod_cast hsum) (not_le.mp hless)
  have htie : ∀ {n d : Nat}, 0 < d → (n / d : ℚ) = roundDiv num' den' + 1 / 2 →
      roundDiv n d % 2 = 0 := by
    intro n d hd hquotient
    refine roundDiv_even (k := roundDiv num' den') hd ?_
    rw [div_eq_iff (Nat.cast_ne_zero.mpr hd.ne')] at hquotient
    have hdouble : (2 * n : ℚ) = (2 * roundDiv num' den' + 1) * d := by rw [hquotient]; ring
    exact_mod_cast hdouble
  have heven := htie hden hmid
  have heven' := htie hden' hmid'
  omega

/-! ## Doubles -/

/-- The size of the double nearest to a quotient, were there no largest double. -/
def rounded (num den : Nat) : ℚ := nearestCoefficient num den * 2 ^ nearestExponent num den

theorem rounded_nonneg (num den : Nat) : 0 ≤ rounded num den :=
  mul_nonneg (Nat.cast_nonneg _) (zpow_pos (by norm_num) _).le

theorem rounded_zero (den : Nat) : rounded 0 den = 0 := by
  have hzero : ∀ e d, roundDiv (scaleUp 0 e) d = 0 := by
    intro e d
    unfold roundDiv scaleUp
    simp
  unfold rounded nearestCoefficient
  rw [hzero, Nat.cast_zero, zero_mul]

/-- A larger quotient is never rounded to a smaller double. -/
theorem rounded_mono (hden : 0 < den) (hden' : 0 < den') (h : (num / den : ℚ) ≤ num' / den') :
    rounded num den ≤ rounded num' den' := by
  rcases Nat.eq_zero_or_pos num with rfl | hnum
  · rw [rounded_zero]
    exact rounded_nonneg num' den'
  have hnum' : 0 < num' := by
    have hpos := (div_cast_pos hnum hden).trans_le h
    refine Nat.pos_of_ne_zero fun hzero => ?_
    rw [hzero, Nat.cast_zero, zero_div] at hpos
    exact lt_irrefl _ hpos
  have hlog : Int.log 2 (num / den : ℚ) ≤ Int.log 2 (num' / den' : ℚ) :=
    Int.log_mono_right (div_cast_pos hnum hden) h
  have hexponent := nearestExponent_eq hnum hden
  have hexponent' := nearestExponent_eq hnum' hden'
  unfold rounded
  rcases eq_or_ne (nearestExponent num den) (nearestExponent num' den') with heq | hne
  · have hcoefficient : nearestCoefficient num den ≤ nearestCoefficient num' den' := by
      unfold nearestCoefficient
      refine roundDiv_mono (scaleUp_pos hden _) (scaleUp_pos hden' _) ?_
      rw [scaleUp_div_scaleUp, scaleUp_div_scaleUp, heq]
      exact div_le_div_of_nonneg_right h (zpow_pos (by norm_num) _).le
    rw [heq]
    exact mul_le_mul_of_nonneg_right (Nat.cast_le.mpr hcoefficient) (zpow_pos (by norm_num) _).le
  · -- the power of two between the two exponents lies between the two doubles
    have hlower : nearestExponent num den + 53 ≤ nearestExponent num' den' + 52 := by omega
    have hmost : (nearestCoefficient num den : ℚ) ≤ 2 ^ (53 : ℤ) := by
      have hle : (nearestCoefficient num den : ℚ) ≤ 2 * Binary.hidden := by
        exact_mod_cast nearestCoefficient_le hnum hden
      rwa [cast_hidden, ← zpow_one_add₀ (by norm_num)] at hle
    have hleast : (2 : ℚ) ^ (52 : ℤ) ≤ nearestCoefficient num' den' := by
      rw [← cast_hidden]
      exact_mod_cast hidden_le_nearestCoefficient hnum' hden' (by omega)
    calc (nearestCoefficient num den : ℚ) * 2 ^ nearestExponent num den
        ≤ 2 ^ (53 : ℤ) * 2 ^ nearestExponent num den :=
          mul_le_mul_of_nonneg_right hmost (zpow_pos (by norm_num) _).le
      _ = 2 ^ (nearestExponent num den + 53) := by rw [← zpow_add₀ (by norm_num), add_comm]
      _ ≤ 2 ^ (nearestExponent num' den' + 52) := zpow_le_zpow_right₀ (by norm_num) hlower
      _ = 2 ^ (52 : ℤ) * 2 ^ nearestExponent num' den' := by
          rw [← zpow_add₀ (by norm_num), add_comm]
      _ ≤ nearestCoefficient num' den' * 2 ^ nearestExponent num' den' :=
          mul_le_mul_of_nonneg_right hleast (zpow_pos (by norm_num) _).le

/-- Equal quotients are rounded to the same double. -/
theorem rounded_congr (hden : 0 < den) (hden' : 0 < den') (h : (num / den : ℚ) = num' / den') :
    rounded num den = rounded num' den' :=
  le_antisymm (rounded_mono hden hden' h.le) (rounded_mono hden' hden h.ge)

/-- The double nearest to a number, were there no largest double. -/
def nearestTo (q : ℚ) : ℚ := signed (decide (q < 0)) 1 * rounded q.num.natAbs q.den

theorem natAbs_num_div_den (q : ℚ) : (q.num.natAbs : ℚ) / q.den = |q| := by
  nth_rewrite 3 [← Rat.num_div_den q]
  rw [abs_div, Nat.abs_cast, Nat.cast_natAbs, Int.cast_abs]

theorem nearestTo_of_nonneg {q : ℚ} (h : 0 ≤ q) : nearestTo q = rounded q.num.natAbs q.den := by
  simp [nearestTo, signed, not_lt.mpr h]

theorem nearestTo_of_neg {q : ℚ} (h : q < 0) : nearestTo q = -rounded q.num.natAbs q.den := by
  simp [nearestTo, signed, h]

/-- Rounding keeps the order of numbers. -/
theorem nearestTo_mono : Monotone nearestTo := by
  intro q r h
  have hsize : |q| ≤ |r| → rounded q.num.natAbs q.den ≤ rounded r.num.natAbs r.den := fun hle =>
    rounded_mono q.den_pos r.den_pos (by rwa [natAbs_num_div_den, natAbs_num_div_den])
  have hsize' : |r| ≤ |q| → rounded r.num.natAbs r.den ≤ rounded q.num.natAbs q.den := fun hle =>
    rounded_mono r.den_pos q.den_pos (by rwa [natAbs_num_div_den, natAbs_num_div_den])
  rcases lt_or_ge q 0 with hq | hq
  · rw [nearestTo_of_neg hq]
    rcases lt_or_ge r 0 with hr | hr
    · rw [nearestTo_of_neg hr]
      exact neg_le_neg (hsize' (by rwa [abs_of_neg hq, abs_of_neg hr, neg_le_neg_iff]))
    · rw [nearestTo_of_nonneg hr]
      exact (neg_nonpos.mpr (rounded_nonneg _ _)).trans (rounded_nonneg _ _)
  · have hr := hq.trans h
    rw [nearestTo_of_nonneg hq, nearestTo_of_nonneg hr]
    exact hsize (by rwa [abs_of_nonneg hq, abs_of_nonneg hr])

theorem abs_signed_div (negative : Bool) (num den : Nat) :
    |(signed negative num / den : ℚ)| = num / den := by
  rw [abs_div, Nat.abs_cast]
  cases negative <;> simp [signed]

/-- A quotient with a sign is rounded by its size. -/
theorem nearestTo_signed (negative : Bool) (num : Nat) (hden : 0 < den) :
    nearestTo (signed negative num / den) = signed negative 1 * rounded num den := by
  have hsize : rounded (signed negative num / den : ℚ).num.natAbs (signed negative num / den : ℚ).den =
      rounded num den :=
    rounded_congr (Rat.den_pos _) hden ((natAbs_num_div_den _).trans (abs_signed_div negative num den))
  have hquotient : (0 : ℚ) ≤ num / den := div_nonneg (Nat.cast_nonneg _) (Nat.cast_nonneg _)
  rw [nearestTo, hsize]
  cases negative with
  | false => simp [signed, not_lt.mpr hquotient]
  | true =>
    rcases Nat.eq_zero_or_pos num with rfl | hnum
    · rw [rounded_zero, mul_zero, mul_zero]
    · have hneg : (signed true num / den : ℚ) < 0 := by
        have hpos := div_cast_pos hnum hden
        simp only [signed, if_true, Int.cast_neg, Int.cast_natCast, neg_div]
        linarith
      rw [decide_eq_true hneg]

/-- The double nearest to a quotient below `2 ^ 1023` is finite. -/
theorem rank_nearest_eq (negative : Bool) (num : Nat) (hden : 0 < den)
    (hbelow : (num / den : ℚ) < 2 ^ (1023 : ℤ)) :
    (Binary.ofFloat (nearest negative num den)).rank =
      toLex (0, nearestTo (signed negative num / den)) := by
  rw [nearest_eq, nearestTo_signed negative num hden]
  rcases Nat.eq_zero_or_pos num with rfl | hnum
  · rw [if_pos rfl, Binary.rank_withSign negative (by decide), rounded_zero]
    simp [Binary.magnitude]
  · have hbits := bitsOf_nearest_lt hnum hden hbelow
    have hlowest : -1074 ≤ nearestExponent num den := le_max_right _ _
    rw [if_neg hnum.ne', nearestBits_eq, min_eq_left hbits.le, Binary.rank_withSign negative hbits,
      magnitude_bitsOf hlowest (nearestCoefficient_le hnum hden)
        (hidden_le_nearestCoefficient hnum hden)]
    rfl

/-! ## Division and rounding down -/

/-- A double that stands for a number is finite. -/
theorem finite_of_rank {x : Float} {v : ℚ} (hnumber : Binary.ofFloat x ≠ .nan)
    (h : (Binary.ofFloat x).rank = toLex (0, v)) :
    ∃ negative m e, Binary.ofFloat x = .finite negative m e ∧ v = signed negative m * 2 ^ e := by
  cases hx : Binary.ofFloat x with
  | nan => exact absurd hx hnumber
  | infinite s =>
    rw [hx] at h
    have hzero : signed s 1 = 0 := congrArg (fun r => (ofLex r).1) h
    cases s <;> cases hzero
  | finite s m e =>
    rw [hx] at h
    exact ⟨s, m, e, rfl, (congrArg (fun r => (ofLex r).2) h).symm⟩

theorem signed_scaleUp_div (negative : Bool) (m n : Nat) (e : Int) :
    (signed negative (scaleUp m e) : ℚ) / scaleUp n (-e) = signed negative m * 2 ^ e / n := by
  have hscale := scaleUp_div_scaleUp m n (-e)
  rw [neg_neg, zpow_neg, div_inv_eq_mul] at hscale
  rw [cast_signed negative (scaleUp m e), mul_div_assoc, hscale, cast_signed negative m]
  ring

/-- The largest integer that is at most a double. -/
theorem floor?_of_rank {x : Float} {v : ℚ} (hnumber : Binary.ofFloat x ≠ .nan)
    (h : (Binary.ofFloat x).rank = toLex (0, v)) : floor? x = some ⌊v⌋ := by
  obtain ⟨negative, m, e, hx, rfl⟩ := finite_of_rank hnumber h
  unfold floor?
  rw [hx]
  refine congrArg some ?_
  have hdivide := signed_scaleUp_div negative m 1 e
  rw [Nat.cast_one, div_one] at hdivide
  rw [Int.fdiv_eq_ediv_of_nonneg _ (Int.natCast_nonneg _), ← hdivide]
  exact (Rat.floor_intCast_div_natCast _ _).symm

/-- A double divided by a positive integer is rounded from the exact quotient. -/
theorem rank_divide {x : Float} {v : ℚ} (hnumber : Binary.ofFloat x ≠ .nan)
    (h : (Binary.ofFloat x).rank = toLex (0, v)) {n : Nat} (hn : 0 < n)
    (hbelow : |v / n| < 2 ^ (1023 : ℤ)) :
    Binary.ofFloat (divide x n) ≠ .nan
      ∧ (Binary.ofFloat (divide x n)).rank = toLex (0, nearestTo (v / n)) := by
  obtain ⟨negative, m, e, hx, rfl⟩ := finite_of_rank hnumber h
  have hdivide : divide x n = nearest negative (scaleUp m e) (scaleUp n (-e)) := by
    unfold divide
    rw [hx]
  rw [← signed_scaleUp_div] at hbelow ⊢
  rw [abs_signed_div] at hbelow
  rw [hdivide]
  exact ⟨ofFloat_nearest_ne_nan _ _ _, rank_nearest_eq _ _ (scaleUp_pos hn _) hbelow⟩

end TaskAutomation.Decimal
