import TaskAutomation.Decimal.Binary

/-!
# The shortest decimal of a double

* `Digits` : a decimal `n · 10 ^ e` with no zero at its end;
* `shortest m e` : of the decimals that read back as the double `m · 2 ^ e`, one with the fewest
  digits, and of those the nearest to it.

A decimal reads back as the double iff it lies between the midpoints to the neighbouring doubles;
the midpoints themselves do iff `m` is even. On the grid of decimals of `k` digits a hit is always
one of the two grid points around the number, so the first `k` with a hit is least.
-/

namespace TaskAutomation.Decimal

/-- The decimal `n · 10 ^ e`. -/
structure Digits where
  n : Nat
  e : Int
  deriving DecidableEq, Repr

/-- The same decimal without the zeros at its end; `fuel` bounds their number. -/
def Digits.strip : Nat → Digits → Digits
  | 0, d => d
  | fuel + 1, d =>
    if d.n % 10 = 0 ∧ d.n ≠ 0 then strip fuel ⟨d.n / 10, d.e + 1⟩ else d

/-- The exponent of the first digit of `num / den`, both positive. -/
def leadingExponent (num den : Nat) : Int :=
  let guess : Int := (Nat.toDigits 10 num).length - (Nat.toDigits 10 den).length
  if den * Nat.pow 10 guess.toNat ≤ num * Nat.pow 10 (-guess).toNat then guess else guess - 1

/-- The decimals with at most `k` digits around `x / den` that lie in the interval from `low / den`
to `high / den`, its ends included or not; the nearer of two, and of two as near the even one. -/
def onGrid (x low high den : Nat) (closed : Bool) (lead : Int) (k : Nat) : Option Digits :=
  let e : Int := lead - k + 1
  let unit := den * Nat.pow 10 e.toNat
  let up := Nat.pow 10 (-e).toNat
  let hit (n : Nat) : Bool :=
    let y := n * unit
    if closed then low * up ≤ y && y ≤ high * up else low * up < y && y < high * up
  let below := x * up / unit
  match hit below, hit (below + 1) with
  | true, true => some ⟨roundDiv (x * up) unit, e⟩
  | true, false => some ⟨below, e⟩
  | false, true => some ⟨below + 1, e⟩
  | false, false => none

/-- A shortest decimal that reads back as the double `m · 2 ^ e`, for `m` positive. -/
def shortest (m : Nat) (e : Int) : Digits :=
  let den := scaleUp 4 (-e)
  let quarter := scaleUp 1 e
  let x := 4 * m * quarter
  let low := if m = Binary.hidden ∧ -1074 < e then x - quarter else x - 2 * quarter
  let high := x + 2 * quarter
  let lead := leadingExponent x den
  let grids := (List.range 17).map (· + 1)
  match grids.findSome? (onGrid x low high den (m % 2 = 0) lead) with
  | some d => d.strip 20
  | none => ⟨m, 0⟩

end TaskAutomation.Decimal
