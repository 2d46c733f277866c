import TaskAutomation.Link.Fault
import TaskAutomation.Text.Digit

/-!
# Padding

* `Padding` : how a text is cut to a length and filled up to a width;
* `Padding.read spec` : a padding as templates write it: a filling and an alignment, a width, a
  point and a length, and the letter `s`;
* `Padding.apply p cs` : the text under a padding. What is written for numbers alone is a fault.
-/

namespace TaskAutomation.Link

/-- The largest number that is counted with. -/
def largest : Nat := 9223372036854775807

/-- The number in the digits, of any script, at the front of a text that go on from a number, and
the text after them. -/
def digitsAfter (n : Nat) : List Char → Except Fault (Nat × List Char)
  | [] => .ok (n, [])
  | c :: rest =>
    match Text.digitValue? c with
    | some d =>
      if largest < 10 * n + d then .error .manyDigits else digitsAfter (10 * n + d) rest
    | none => .ok (n, c :: rest)

/-- The number at the front of a text, if it begins with a digit, and the text after it. -/
def numberAt (cs : List Char) : Except Fault (Option Nat × List Char) := do
  let (n, rest) ← digitsAfter 0 cs
  return (if rest.length = cs.length then none else some n, rest)

/-- The side on which a text stands in its width. -/
inductive Align where
  | left
  | right
  | centre
  | afterSign
  deriving DecidableEq, Repr

namespace Align

/-- The alignment of a sign. -/
def ofChar? (c : Char) : Option Align :=
  if c == '<' then some .left
  else if c == '>' then some .right
  else if c == '^' then some .centre
  else if c == '=' then some .afterSign
  else none

end Align

/-- How a text is cut and filled up. -/
structure Padding where
  fill : Char := ' '
  align : Align := .left
  width : Option Nat := none
  limit : Option Nat := none

namespace Padding

/-- The filling and the alignment at the front of a padding, and the rest. -/
def readAlign : List Char → Option Char × Option Align × List Char
  | c :: d :: rest =>
    match Align.ofChar? d, Align.ofChar? c with
    | some a, _ => (some c, some a, rest)
    | none, some a => (none, some a, d :: rest)
    | none, none => (none, none, c :: d :: rest)
  | [c] =>
    match Align.ofChar? c with
    | some a => (none, some a, [])
    | none => (none, none, [c])
  | [] => (none, none, [])

/-- A character at the front that satisfies a condition, and the rest. -/
def readChar (p : Char → Bool) : List Char → Option Char × List Char
  | c :: rest => if p c then (some c, rest) else (none, c :: rest)
  | [] => (none, [])

/-- The mark between groups of digits at the front, and the rest. -/
def readSeparator (cs : List Char) : Except Fault (Option Char × List Char) :=
  match readChar (· == ',') cs, readChar (· == '_') cs with
  | (some c, rest), _ => if rest.head? == some '_' then .error .twoSeparators else .ok (some c, rest)
  | _, (some c, rest) => if rest.head? == some ',' then .error .twoSeparators else .ok (some c, rest)
  | _, _ => .ok (none, cs)

/-- The length after a point at the front, and the rest. -/
def readLimit : List Char → Except Fault (Option Nat × List Char)
  | '.' :: cs => do
    match ← numberAt cs with
    | (some n, rest) => return (some n, rest)
    | (none, _) => throw .noPrecision
  | cs => .ok (none, cs)

/-- The types of numbers that may be shown in groups of digits. -/
def grouped (separator : Char) : List Char :=
  ['d', 'e', 'f', 'g', 'E', 'G', '%', 'F'] ++ (if separator == '_' then ['b', 'o', 'x', 'X'] else [])

/-- What a padding asks for that texts cannot have. -/
def refuse (type : Char) (separator sign zero form : Option Char) (align : Align) :
    Except Fault Unit := do
  if let some c := separator then
    if !(grouped c).contains type then throw (.separator c type)
  if type != 's' then throw (.unknownType type)
  if let some c := sign then throw (if c == ' ' then .blankSign else .sign)
  if zero.isSome then throw .zeroSign
  if form.isSome then throw .otherForm
  if align = .afterSign then throw .signAlign

/-- A padding as templates write it. -/
def read (spec : List Char) : Except Fault Padding := do
  let (fill, align, cs) := readAlign spec
  let (sign, cs) := readChar (fun c => c == ' ' || c == '+' || c == '-') cs
  let (zero, cs) := readChar (· == 'z') cs
  let (form, cs) := readChar (· == '#') cs
  let (zeroFill, cs) := if fill.isSome then (none, cs) else readChar (· == '0') cs
  let (width, cs) ← numberAt cs
  let (separator, cs) ← readSeparator cs
  let (limit, cs) ← readLimit cs
  let type ← match cs with
    | [] => pure 's'
    | [c] => pure c
    | _ => throw (.badPadding (String.ofList spec))
  let align := align.getD .left
  refuse type separator sign zero form align
  return { fill := (fill <|> zeroFill).getD ' ', align, width, limit }

/-- A text under a padding. -/
def apply (p : Padding) (cs : List Char) : List Char :=
  let cs := match p.limit with
    | some n => cs.take n
    | none => cs
  let missing := p.width.getD 0 - cs.length
  let left := match p.align with
    | .right => missing
    | .centre => missing / 2
    | _ => 0
  List.replicate left p.fill ++ cs ++ List.replicate (missing - left) p.fill

end Padding

end TaskAutomation.Link
