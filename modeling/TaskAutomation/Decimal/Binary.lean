/-!
# Doubles as exact numbers

* `Binary` : what a double stands for, `± m · 2 ^ e`, an infinity, or no number;
  `Binary.ofFloat` reads it off the bits, `Binary.ofInt` gives an integer exactly;
* `Binary.cmp?` : exact comparison, `none` when a side is no number;
* `roundDiv num den` : a quotient to the nearest integer, a half to the even one;
* `nearest negative num den` : the double nearest to a quotient, a half to the even one, an
  infinity beyond the largest double.
-/

namespace TaskAutomation.Decimal

/-- The exact meaning of a double or of an integer. -/
inductive Binary where
  | finite (negative : Bool) (m : Nat) (e : Int)
  | infinite (negative : Bool)
  | nan
  deriving DecidableEq, Repr

/-- `x * 2 ^ e` for `e` not negative, `x` otherwise. -/
def scaleUp (x : Nat) (e : Int) : Nat := x * Nat.pow 2 e.toNat

/-- The bit before the fraction of a double that is not written, `2 ^ 52`. -/
def Binary.hidden : Nat := 4503599627370496

/-- The bit for the sign of a double, `2 ^ 63`. -/
def Binary.signBit : Nat := 9223372036854775808

/-- The meaning of a double, from its bits. -/
def Binary.ofFloat (x : Float) : Binary :=
  let bits := x.toBits.toNat
  let negative := decide (signBit ≤ bits)
  let exponent : Nat := bits / hidden % 2048
  let fraction := bits % hidden
  if exponent = 2047 then if fraction = 0 then .infinite negative else .nan
  else if exponent = 0 then .finite negative fraction (-1074)
  else .finite negative (fraction + hidden) ((exponent : Int) - 1075)

/-- An integer as an exact number. -/
def Binary.ofInt (n : Int) : Binary := .finite (decide (n < 0)) n.natAbs 0

/-- The sign of a finite number applied to a magnitude. -/
def signed (negative : Bool) (m : Nat) : Int := if negative then -(m : Int) else m

/-- Exact comparison of two numbers. -/
def Binary.cmp? : Binary → Binary → Option Ordering
  | .nan, _ => none
  | _, .nan => none
  | .infinite a, .infinite b => some (compare (signed a 1) (signed b 1))
  | .infinite a, .finite .. => some (compare (signed a 1) 0)
  | .finite .., .infinite b => some (compare 0 (signed b 1))
  | .finite a m e, .finite b n f =>
    some (compare (signed a (scaleUp m (e - f))) (signed b (scaleUp n (f - e))))

/-- Two numbers are equal as numbers; no number equals nothing. -/
def Binary.eqv (a b : Binary) : Bool := a.cmp? b == some .eq

/-- The number is neither an infinity nor no number. -/
def Binary.isFinite : Binary → Bool
  | .finite .. => true
  | _ => false

/-- A quotient to the nearest integer, a half to the even one. -/
def roundDiv (num den : Nat) : Nat :=
  let q := num / den
  let twice := 2 * (num % den)
  if twice < den then q else if den < twice then q + 1 else q + q % 2

/-- The bits of the double nearest to `num / den`, both positive. -/
def nearestBits (num den : Nat) : Nat :=
  let guess : Int := (num.log2 : Int) - den.log2 - 52
  let short := scaleUp num (-guess) < scaleUp (den * Binary.hidden) guess
  let e := max (if short then guess - 1 else guess) (-1074)
  let m := roundDiv (scaleUp num (-e)) (scaleUp den e)
  let bits := if m < Binary.hidden then m
    else (e + 1075).toNat * Binary.hidden + (m - Binary.hidden)
  min bits (2047 * Binary.hidden)

/-- The double nearest to a quotient with the given sign. -/
def nearest (negative : Bool) (num den : Nat) : Float :=
  let bits := if num = 0 then 0 else nearestBits num den
  Float.ofBits (UInt64.ofNat (if negative then Binary.signBit + bits else bits))

/-- The infinity of a sign. -/
def infinity (negative : Bool) : Float := nearest negative (Nat.pow 2 1025) 1

/-- The double nearest to `± m · 10 ^ e`. -/
def ofDecimal (negative : Bool) (m : Nat) (e : Int) : Float :=
  let digits : Int := (Nat.toDigits 10 m).length
  if m = 0 || digits + e < -400 then nearest negative 0 1
  else if 400 < digits + e then infinity negative
  else nearest negative (m * Nat.pow 10 e.toNat) (Nat.pow 10 (-e).toNat)

/-- The double nearest to an integer, unless the integer is beyond the largest double. -/
def ofInt? (n : Int) : Option Float :=
  let x := nearest (decide (n < 0)) n.natAbs 1
  if (Binary.ofFloat x).isFinite then some x else none

/-- The double is neither an infinity nor no number. -/
def isFinite (x : Float) : Bool := (Binary.ofFloat x).isFinite

/-- The largest integer that is at most a finite double. -/
def floor? (x : Float) : Option Int :=
  match Binary.ofFloat x with
  | .finite negative m e => some (Int.fdiv (signed negative (scaleUp m e)) (scaleUp 1 (-e)))
  | _ => none

/-- A double divided by a positive integer, rounded to a double. -/
def divide (x : Float) (n : Nat) : Float :=
  match Binary.ofFloat x with
  | .finite negative m e => nearest negative (scaleUp m e) (scaleUp n (-e))
  | _ => x

/-- How many times a positive integer goes into a finite double, rounded down. -/
def floorDivide (x : Float) (n : Nat) : Int :=
  match Binary.ofFloat x with
  | .finite negative m e => Int.fdiv (signed negative (scaleUp m e)) (scaleUp n (-e))
  | _ => 0

/-- The integer that a double is equal to. -/
def toInt? (x : Float) : Option Int :=
  match floor? x with
  | some n => if (Binary.ofInt n).eqv (Binary.ofFloat x) then some n else none
  | none => none

end TaskAutomation.Decimal
