import Mathlib
import TaskAutomation.Decimal.Binary

/-!
# The order of doubles

* `Binary.rank` : where a number stands, infinities below and above all finite ones;
  `Binary.toRat?` : the size of a finite one;
* `Binary.cmp?_lt_iff`, `Binary.eqv_iff` : one number is less than another just when it stands lower,
  and equal to it just when it stands at the same place;
* `toBits_ofBits` : bits that are at most those of infinity, beside the sign, are kept;
  `ofFloat_nearest_ne_nan` : so rounding always gives a number;
* `Binary.magnitude` : the size of the number that bits stand for; `Binary.rank_withSign` : where it stands.
-/

namespace TaskAutomation.Decimal

/-! ## Ranks -/

namespace Binary

/-- Where a number stands: by infinity first, and by its size among the finite ones. -/
def rank : Binary → ℤ ×ₗ ℚ
  | .finite negative m e => toLex (0, (signed negative m : ℚ) * 2 ^ e)
  | .infinite negative => toLex (signed negative 1, 0)
  | .nan => toLex (0, 0)

/-- The size of a finite number. -/
def toRat? : Binary → Option ℚ
  | .finite negative m e => some (signed negative m * 2 ^ e)
  | _ => none

theorem rank_of_toRat? {b : Binary} {q : ℚ} (h : b.toRat? = some q) :
    b ≠ .nan ∧ b.rank = toLex (0, q) := by
  cases b with
  | finite negative m e =>
    cases h
    exact ⟨nofun, rfl⟩
  | _ => cases h

theorem exists_toRat? {b : Binary} (h : b.isFinite = true) : ∃ q, b.toRat? = some q := by
  cases b with
  | finite negative m e => exact ⟨_, rfl⟩
  | _ => cases h

theorem signed_scaleUp (negative : Bool) (m : Nat) (d : Int) :
    signed negative (scaleUp m d) = signed negative m * 2 ^ d.toNat := by
  have hpow : Nat.pow 2 d.toNat = 2 ^ d.toNat := rfl
  unfold signed scaleUp
  split
  · rw [hpow]
    push_cast
    ring
  · rw [hpow]
    push_cast
    ring

/-- Sizes are compared as the integers that they are multiples of, at the lower exponent. -/
theorem size_lt_iff (a b : Bool) (m n : Nat) (e f : Int) :
    (signed a m : ℚ) * 2 ^ e < signed b n * 2 ^ f ↔
      signed a (scaleUp m (e - f)) < signed b (scaleUp n (f - e)) := by
  have htwo : (2 : ℚ) ≠ 0 := by norm_num
  have hsplit : ∀ (k : ℤ) (x y : Int),
      (k : ℚ) * 2 ^ x = ((k * 2 ^ (x - y).toNat : ℤ) : ℚ) * 2 ^ min x y := by
    intro k x y
    have hx : x = ((x - y).toNat : ℤ) + min x y := by omega
    conv_lhs => rw [hx]
    rw [zpow_add₀ htwo, zpow_natCast]
    push_cast
    ring
  rw [hsplit (signed a m) e f, hsplit (signed b n) f e, min_comm f e, signed_scaleUp, signed_scaleUp,
    mul_lt_mul_iff_left₀ (zpow_pos (by norm_num) _), Int.cast_lt]

/-- One number is less than another just when it stands lower. -/
theorem cmp?_lt_iff {a b : Binary} (ha : a ≠ .nan) (hb : b ≠ .nan) :
    a.cmp? b = some .lt ↔ a.rank < b.rank := by
  have hone : ∀ negative, signed negative 1 ≠ 0 := by decide
  cases a with
  | nan => exact absurd rfl ha
  | infinite s =>
    cases b with
    | nan => exact absurd rfl hb
    | infinite t => simp [cmp?, rank, Prod.Lex.toLex_lt_toLex, compare_lt_iff_lt]
    | finite t n f => simp [cmp?, rank, Prod.Lex.toLex_lt_toLex, compare_lt_iff_lt, hone s]
  | finite s m e =>
    cases b with
    | nan => exact absurd rfl hb
    | infinite t => simp [cmp?, rank, Prod.Lex.toLex_lt_toLex, compare_lt_iff_lt, (hone t).symm]
    | finite t n f =>
      simp only [cmp?, rank, Prod.Lex.toLex_lt_toLex, Option.some.injEq, compare_lt_iff_lt,
        lt_irrefl, false_or, true_and]
      exact (size_lt_iff s t m n e f).symm

theorem size_eq_iff (a b : Bool) (m n : Nat) (e f : Int) :
    (signed a m : ℚ) * 2 ^ e = signed b n * 2 ^ f ↔
      signed a (scaleUp m (e - f)) = signed b (scaleUp n (f - e)) := by
  rw [eq_iff_le_not_lt, eq_iff_le_not_lt, ← not_lt, ← not_lt, size_lt_iff, size_lt_iff]

/-- Two numbers are equal just when they stand at the same place. -/
theorem eqv_iff {a b : Binary} :
    a.eqv b = true ↔ a ≠ .nan ∧ b ≠ .nan ∧ a.rank = b.rank := by
  have hone : ∀ negative, signed negative 1 ≠ 0 := by decide
  unfold eqv
  cases a with
  | nan => simp [cmp?]
  | infinite s =>
    cases b with
    | nan => simp [cmp?]
    | infinite t => simp [cmp?, rank]
    | finite t n f => simp [cmp?, rank, hone s]
  | finite s m e =>
    cases b with
    | nan => simp [cmp?]
    | infinite t => simp [cmp?, rank, (hone t).symm]
    | finite t n f => simp [cmp?, rank, size_eq_iff]

end Binary

/-! ## Bits -/

open Float.Model Float.Model.UnpackedFloat

theorem toNat_unpackExponent (b : BitVec Format.binary64.numBits) :
    (unpackExponent b).toNat = b.toNat / Binary.hidden % 2048 := by
  unfold unpackExponent
  rw [BitVec.toNat_cast, BitVec.extractLsb_toNat, Nat.shiftRight_eq_div_pow]
  rfl

theorem toNat_unpackMantissa (b : BitVec Format.binary64.numBits) :
    (unpackMantissa b).toNat = b.toNat % Binary.hidden := by
  unfold unpackMantissa
  rw [BitVec.toNat_cast, BitVec.extractLsb_toNat, Nat.shiftRight_zero]
  rfl

/-- The bits of a number are kept. -/
theorem toBits_ofBits {u : UInt64} (h : u.toNat % Binary.signBit ≤ 2047 * Binary.hidden) :
    (Float.ofBits u).toBits = u := by
  have hnumber : isNaNBits (show BitVec Format.binary64.numBits from u.toBitVec) = false := by
    rw [isNaNBits, decide_eq_false_iff_not]
    rintro ⟨hexponent, hmantissa⟩
    have hexponent : u.toNat / Binary.hidden % 2048 = 2047 :=
      (toNat_unpackExponent u.toBitVec).symm.trans (congrArg BitVec.toNat hexponent)
    have hfraction : u.toNat % Binary.hidden ≠ 0 := fun hzero =>
      hmantissa (BitVec.eq_of_toNat_eq ((toNat_unpackMantissa u.toBitVec).trans hzero))
    unfold Binary.hidden at hexponent hfraction h
    unfold Binary.signBit at h
    omega
  apply UInt64.toBitVec_inj.mp
  show (UnpackedFloat.unpack .binary64 u.toBitVec).pack .binary64 = u.toBitVec
  rw [pack_unpack, hnumber, if_neg Bool.false_ne_true]

theorem ofFloat_eq_nan {x : Float} (h : Binary.ofFloat x = .nan) :
    x.toBits.toNat / Binary.hidden % 2048 = 2047 ∧ x.toBits.toNat % Binary.hidden ≠ 0 := by
  unfold Binary.ofFloat at h
  simp only at h
  split at h
  · next hexponent =>
    split at h
    · cases h
    · next hfraction => exact ⟨hexponent, hfraction⟩
  · split at h <;> cases h

/-- Bits that are at most those of infinity, beside the sign, make a number. -/
theorem ofFloat_ofBits_ne_nan {u : UInt64} (h : u.toNat % Binary.signBit ≤ 2047 * Binary.hidden) :
    Binary.ofFloat (Float.ofBits u) ≠ .nan := by
  intro hnan
  obtain ⟨hexponent, hfraction⟩ := ofFloat_eq_nan hnan
  rw [toBits_ofBits h] at hexponent hfraction
  unfold Binary.hidden at hexponent hfraction h
  unfold Binary.signBit at h
  omega

/-- Bits and one for the sign. -/
def withSign (negative : Bool) (bits : Nat) : UInt64 :=
  UInt64.ofNat (if negative then Binary.signBit + bits else bits)

theorem toNat_withSign (negative : Bool) {bits : Nat} (h : bits ≤ 2047 * Binary.hidden) :
    (withSign negative bits).toNat = (if negative then Binary.signBit else 0) + bits := by
  unfold Binary.hidden at h
  unfold withSign Binary.signBit
  rw [UInt64.toNat_ofNat']
  split <;> omega

theorem withSign_le (negative : Bool) {bits : Nat} (h : bits ≤ 2047 * Binary.hidden) :
    (withSign negative bits).toNat % Binary.signBit ≤ 2047 * Binary.hidden := by
  rw [toNat_withSign negative h]
  unfold Binary.hidden at h
  unfold Binary.hidden Binary.signBit
  split <;> omega

theorem nearest_eq (negative : Bool) (num den : Nat) : nearest negative num den =
    Float.ofBits (withSign negative (if num = 0 then 0 else nearestBits num den)) := rfl

/-- Rounding always gives a number. -/
theorem ofFloat_nearest_ne_nan (negative : Bool) (num den : Nat) :
    Binary.ofFloat (nearest negative num den) ≠ .nan := by
  refine ofFloat_ofBits_ne_nan (withSign_le negative ?_)
  split
  · exact Nat.zero_le _
  · exact Nat.min_le_right _ _

/-! ## Sizes -/

theorem signed_natAbs (n : Int) : signed (decide (n < 0)) n.natAbs = n := by
  unfold signed
  simp only [decide_eq_true_eq]
  split <;> omega

theorem cast_signed (negative : Bool) (m : Nat) :
    (signed negative m : ℚ) = signed negative 1 * m := by
  unfold signed
  split
  · simp
  · simp

namespace Binary

/-- The size of the number that bits stand for, without one for the sign. -/
def magnitude (bits : Nat) : ℚ :=
  if bits / hidden = 0 then (bits : ℚ) * 2 ^ (-1074 : ℤ)
  else ((bits % hidden + hidden : Nat) : ℚ) * 2 ^ ((bits / hidden : Nat) - 1075 : ℤ)

/-- Bits below those of infinity stand for a finite number. -/
theorem rank_withSign (negative : Bool) {bits : Nat} (h : bits < 2047 * hidden) :
    (ofFloat (Float.ofBits (withSign negative bits))).rank =
      toLex (0, signed negative 1 * magnitude bits) := by
  have hkept := toBits_ofBits (withSign_le negative h.le)
  have hbits := toNat_withSign negative h.le
  have hnegative : decide (signBit ≤ (if negative then signBit else 0) + bits) = negative := by
    unfold hidden at h
    unfold signBit
    cases negative with
    | false =>
      rw [if_neg Bool.false_ne_true]
      exact decide_eq_false (by omega)
    | true =>
      rw [if_pos rfl]
      exact decide_eq_true (by omega)
  have hexponent : ((if negative then signBit else 0) + bits) / hidden % 2048 = bits / hidden := by
    unfold hidden at h ⊢
    unfold signBit
    split <;> omega
  have hfraction : ((if negative then signBit else 0) + bits) % hidden = bits % hidden := by
    unfold signBit hidden
    split <;> omega
  unfold ofFloat magnitude
  simp only [hkept, hbits, hnegative, hexponent, hfraction]
  rw [if_neg (Nat.div_lt_of_lt_mul (by rwa [mul_comm])).ne]
  split
  · next hzero =>
    rw [rank, cast_signed, mul_assoc, Nat.mod_eq_of_lt ((Nat.div_eq_zero_iff_lt (by decide)).mp hzero)]
  · rw [rank, cast_signed, mul_assoc]

end Binary

end TaskAutomation.Decimal
