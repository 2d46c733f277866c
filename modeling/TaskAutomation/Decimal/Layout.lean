import TaskAutomation.Decimal.Shortest

/-!
# How numbers are written

* `Layout` : where positional notation ends, and how wide an exponent is at least; `layout` is the
  one in use;
* `write x` : the shortest decimal of a double, always with a point or an exponent;
* `writeSigned x` : the same with a sign in front of every number;
* `round2 x` : a double rounded to two places, a half of the exact value to the even neighbour.
-/

namespace TaskAutomation.Decimal

/-- Positional notation holds for first digits at `10 ^ lowest` up to below `10 ^ beyond`. -/
structure Layout where
  lowest : Int
  beyond : Int
  exponentWidth : Nat

/-- Positional from `0.0001` to below `10 ^ 16`, exponents of two digits or more. -/
def layout : Layout := ⟨-4, 16, 2⟩

/-- A text filled with zeros at its front to a width. -/
def zeroFill (width : Nat) (s : String) : String :=
  String.ofList (List.replicate (width - s.length) '0') ++ s

/-- A positive decimal under a layout. -/
def Digits.render (l : Layout) (d : Digits) : String :=
  let digits := Nat.toDigits 10 d.n
  let count : Int := digits.length
  let lead := d.e + count - 1
  let text := String.ofList
  if l.lowest ≤ lead ∧ lead < l.beyond then
    if 0 ≤ d.e then text (digits ++ List.replicate d.e.toNat '0') ++ ".0"
    else if 0 ≤ lead then
      text (digits.take (lead + 1).toNat) ++ "." ++ text (digits.drop (lead + 1).toNat)
    else "0." ++ text (List.replicate (-lead - 1).toNat '0' ++ digits)
  else
    let mantissa := match digits with
      | [] => ""
      | [c] => text [c]
      | c :: rest => text (c :: '.' :: rest)
    let sign := if lead < 0 then "-" else "+"
    mantissa ++ "e" ++ sign ++ zeroFill l.exponentWidth (toString lead.natAbs)

/-- The magnitude of a number that is one. -/
def writeMagnitude (m : Nat) (e : Int) : String :=
  if m = 0 then "0.0" else (shortest m e).render layout

/-- The shortest decimal of a double. -/
def write (x : Float) : String :=
  match Binary.ofFloat x with
  | .nan => "nan"
  | .infinite negative => if negative then "-inf" else "inf"
  | .finite negative m e => (if negative then "-" else "") ++ writeMagnitude m e

/-- The shortest decimal of a double with its sign, a plus included. -/
def writeSigned (x : Float) : String :=
  match Binary.ofFloat x with
  | .nan => "+nan"
  | .infinite negative => if negative then "-inf" else "+inf"
  | .finite negative m e => (if negative then "-" else "+") ++ writeMagnitude m e

/-- A double rounded to two places; infinities and no number stay. -/
def round2 (x : Float) : Float :=
  match Binary.ofFloat x with
  | .finite negative m e =>
    nearest negative (roundDiv (100 * scaleUp m e) (scaleUp 1 (-e))) 100
  | _ => x

end TaskAutomation.Decimal
