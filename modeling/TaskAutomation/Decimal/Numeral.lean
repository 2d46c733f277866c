import TaskAutomation.Decimal.Binary
import TaskAutomation.Text.Blank
import TaskAutomation.Text.Digit

/-!
# Reading numerals

* `ofDigits ds` : the number whose decimal digits are `ds`;
* `digitRun cs` : the digits at the front of a text, single underscores between digits allowed;
* `integer? s` : an integer in at most `maxDigits` decimal digits of any script, a sign and blanks
  around allowed;
* `number? s` : a decimal number with optional point and exponent, or the words for infinity and
  no number, under the same rules.
-/

namespace TaskAutomation.Decimal

open Text

/-- The most digits that an integer numeral may have, leading zeros counted. -/
def maxDigits : Nat := 4300

/-- The number with the given decimal digits, the highest first. -/
def ofDigits (ds : List Nat) : Nat := ds.foldl (fun n d => 10 * n + d) 0

/-- The digits that follow a digit, and the rest of the text. -/
def digitsAfter (digit? : Char → Option Nat) : List Char → List Nat × List Char
  | [] => ([], [])
  | '_' :: c :: rest =>
    match digit? c with
    | some d => let (ds, after) := digitsAfter digit? rest; (d :: ds, after)
    | none => ([], '_' :: c :: rest)
  | c :: rest =>
    match digit? c with
    | some d => let (ds, after) := digitsAfter digit? rest; (d :: ds, after)
    | none => ([], c :: rest)

/-- The digits at the front of a text, single underscores between them, and the rest. -/
def digitRun (digit? : Char → Option Nat) : List Char → List Nat × List Char
  | [] => ([], [])
  | c :: rest =>
    match digit? c with
    | some d => let (ds, after) := digitsAfter digit? rest; (d :: ds, after)
    | none => ([], c :: rest)

/-- An optional sign at the front of a text, and the rest. -/
def signAt : List Char → Bool × List Char
  | '-' :: rest => (true, rest)
  | '+' :: rest => (false, rest)
  | cs => (false, cs)

/-- An integer numeral, blanks around it allowed. -/
def integer? (s : String) : Option Int :=
  let (negative, cs) := signAt (trimList isBlank s.toList)
  match digitRun digitValue? cs with
  | ([], _) => none
  | (ds, []) => if maxDigits < ds.length then none else some (signed negative (ofDigits ds))
  | _ => none

/-- The exponent of a numeral: a mark, an optional sign, digits, and nothing after them. -/
def exponent? (digit? : Char → Option Nat) : List Char → Option Int
  | [] => some 0
  | c :: rest =>
    if c == 'e' || c == 'E' then
      let (negative, cs) := signAt rest
      match digitRun digit? cs with
      | ([], _) => none
      | (ds, []) => some (signed negative (ofDigits ds))
      | _ => none
    else none

/-- A decimal numeral without its sign: digits and exponent. -/
def decimal? (digit? : Char → Option Nat) (cs : List Char) : Option (Nat × Int) :=
  let (whole, after) := digitRun digit? cs
  match after with
  | '.' :: rest =>
    let (fraction, tail) := digitRun digit? rest
    if whole.isEmpty && fraction.isEmpty then none
    else (exponent? digit? tail).map fun e =>
      (ofDigits (whole ++ fraction), e - fraction.length)
  | _ => if whole.isEmpty then none
    else (exponent? digit? after).map fun e => (ofDigits whole, e)

/-- The words for infinity and for no number, in any case. -/
def numberWord? (negative : Bool) (cs : List Char) : Option Float :=
  let word := String.ofList (cs.map Char.toLower)
  if word == "inf" || word == "infinity" then some (infinity negative)
  else if word == "nan" then some (Float.ofBits 0x7ff8000000000000)
  else none

/-- A number without blanks around it. -/
def bareNumber? (digit? : Char → Option Nat) (cs : List Char) : Option Float :=
  let (negative, cs) := signAt cs
  match decimal? digit? cs with
  | some (m, e) => some (ofDecimal negative m e)
  | none => numberWord? negative cs

/-- A number, blanks around it and digits of any script allowed. -/
def number? (s : String) : Option Float :=
  bareNumber? digitValue? (trimList isBlank s.toList)

end TaskAutomation.Decimal
