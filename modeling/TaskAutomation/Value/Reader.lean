import TaskAutomation.Decimal.Numeral
import TaskAutomation.Value.Basic

/-!
# Reading JSON

* `Json.read s` : the value that a JSON text stands for. Beyond the standard it takes the words
  `NaN`, `Infinity` and `-Infinity`; a repeated field keeps its last value in its first place;
* `Json.Fault` : why a text has no value: it departs from the grammar at a position, an integer has
  too many digits, or values are nested too deeply.

The position of a fault is the one at which the reader gives up: the start of the value that is
missing, of the text that does not end, or of the escape that means nothing.
-/

namespace TaskAutomation.Json

open Decimal

/-- Why a text cannot be read. -/
inductive Fault where
  | invalid (position : Nat)
  | digits (count : Nat)
  | depth
  deriving DecidableEq, Repr

/-- What has not been read yet, and its position in the text. -/
structure Cursor where
  rest : List Char
  position : Nat

/-- The deepest nesting of lists and objects. -/
def maxDepth : Nat := 990

/-- Blanks between the tokens. -/
def isSpace (c : Char) : Bool := c == ' ' || c == '\t' || c == '\n' || c == '\r'

/-- Goes past blanks. -/
def skipSpace : Nat → List Char → Cursor
  | p, [] => ⟨[], p⟩
  | p, c :: rest => if isSpace c then skipSpace (p + 1) rest else ⟨c :: rest, p⟩

/-- Goes past blanks. -/
def Cursor.skip (c : Cursor) : Cursor := skipSpace c.position c.rest

/-- Goes past `n` characters. -/
def Cursor.advance (c : Cursor) (n : Nat) : Cursor := ⟨c.rest.drop n, c.position + n⟩

/-- The value of a hexadecimal digit. -/
def hexDigit? (c : Char) : Option Nat :=
  if c.isDigit then some (c.toNat - 48)
  else if 'a' ≤ c && c ≤ 'f' then some (c.toNat - 87)
  else if 'A' ≤ c && c ≤ 'F' then some (c.toNat - 55)
  else none

/-- The value of four hexadecimal digits. -/
def hex4? (a b c d : Char) : Option Nat := do
  return (((← hexDigit? a) * 16 + (← hexDigit? b)) * 16 + (← hexDigit? c)) * 16 + (← hexDigit? d)

/-- The character that an escape of one letter stands for. -/
def escape? : Char → Option Char
  | '"' => some '"'
  | '\\' => some '\\'
  | '/' => some '/'
  | 'b' => some (Char.ofNat 8)
  | 'f' => some (Char.ofNat 12)
  | 'n' => some '\n'
  | 'r' => some '\r'
  | 't' => some '\t'
  | _ => none

/-- The first of two halves of a character beyond `U+FFFF`. -/
def isHighHalf (n : Nat) : Bool := 0xd800 ≤ n && n < 0xdc00

/-- The second half of such a character. -/
def isLowHalf (n : Nat) : Bool := 0xdc00 ≤ n && n < 0xe000

/-- Reads a text that began at `start` up to its closing quote; `p` is the position of the first
character given. -/
def readString (start : Nat) : Nat → List Char → Except Fault (List Char × Cursor)
  | _, [] => .error (.invalid start)
  | p, '"' :: rest => .ok ([], ⟨rest, p + 1⟩)
  | _, '\\' :: [] => .error (.invalid start)
  | p, '\\' :: 'u' :: a :: b :: c :: d :: e :: rest =>
    match hex4? a b c d with
    | none => .error (.invalid (p + 1))
    | some n =>
      if isHighHalf n then
        match e, rest with
        | '\\', 'u' :: a :: b :: c :: d :: f :: rest =>
          match hex4? a b c d with
          | none => .error (.invalid (p + 7))
          | some m =>
            if isLowHalf m then do
              let (cs, after) ← readString start (p + 12) (f :: rest)
              return (Char.ofNat (0x10000 + (n - 0xd800) * 0x400 + (m - 0xdc00)) :: cs, after)
            else .error (.invalid (p + 1))
        | _, _ => .error (.invalid (p + 1))
      else if isLowHalf n then .error (.invalid (p + 1))
      else do
        let (cs, after) ← readString start (p + 6) (e :: rest)
        return (Char.ofNat n :: cs, after)
  | p, '\\' :: 'u' :: _ => .error (.invalid (p + 1))
  | p, '\\' :: c :: rest =>
    match escape? c with
    | none => .error (.invalid p)
    | some x => do
      let (cs, after) ← readString start (p + 2) rest
      return (x :: cs, after)
  | p, c :: rest =>
    if c.toNat < 32 then .error (.invalid p)
    else do
      let (cs, after) ← readString start (p + 1) rest
      return (c :: cs, after)

/-- The digits at the front of a text. -/
def digitsOf (cs : List Char) : List Char := cs.takeWhile Char.isDigit

/-- The number of characters of a fraction: a point and digits, or nothing. -/
def fractionLength : List Char → Nat
  | '.' :: rest => match digitsOf rest with
    | [] => 0
    | ds => ds.length + 1
  | _ => 0

/-- The number of characters of an exponent: a mark, a sign or none, and digits, or nothing. -/
def exponentLength : List Char → Nat
  | c :: rest =>
    if c == 'e' || c == 'E' then
      match rest with
      | s :: more =>
        if s == '+' || s == '-' then
          match digitsOf more with
          | [] => 0
          | ds => ds.length + 2
        else match digitsOf rest with
          | [] => 0
          | ds => ds.length + 1
      | [] => 0
    else 0
  | [] => 0

/-- The digits of a whole number: a zero alone, or digits that do not begin with one. -/
def wholeOf : List Char → List Char
  | '0' :: _ => ['0']
  | cs => digitsOf cs

/-- Reads a number. -/
def readNumber (cur : Cursor) : Except Fault (Value × Cursor) :=
  let signLength := match cur.rest with
    | '-' :: _ => 1
    | _ => 0
  let body := cur.rest.drop signLength
  let whole := wholeOf body
  if whole.isEmpty then .error (.invalid cur.position)
  else
    let fraction := fractionLength (body.drop whole.length)
    let exponent := exponentLength (body.drop (whole.length + fraction))
    let length := whole.length + fraction + exponent
    let after := cur.advance (signLength + length)
    let negative := signLength == 1
    if fraction == 0 && exponent == 0 then
      if maxDigits < whole.length then .error (.digits whole.length)
      else .ok (.int (signed negative (ofDigits (whole.filterMap Text.asciiDigit?))), after)
    else match decimal? Text.asciiDigit? (body.take length) with
      | some (m, e) => .ok (.float (ofDecimal negative m e), after)
      | none => .error (.invalid cur.position)

/-- The words that stand for values. -/
def words : List (String × Value) :=
  [("null", .null), ("true", .bool true), ("false", .bool false),
   ("NaN", .float (Float.ofBits 0x7ff8000000000000)),
   ("Infinity", .float (Float.ofBits 0x7ff0000000000000)),
   ("-Infinity", .float (Float.ofBits 0xfff0000000000000))]

/-- Reads a value that is no text, list or object. -/
def readScalar (cur : Cursor) : Except Fault (Value × Cursor) :=
  match words.find? fun (w, _) => w.toList.isPrefixOf cur.rest with
  | some (w, v) => .ok (v, cur.advance w.length)
  | none => readNumber cur

mutual

/-- Reads the value at a cursor; `fuel` bounds the steps and `depth` the nesting. -/
def readValue (fuel depth : Nat) (cur : Cursor) : Except Fault (Value × Cursor) :=
  match fuel with
  | 0 => .error .depth
  | fuel + 1 =>
    match cur.rest with
    | '"' :: rest => do
      let (cs, after) ← readString cur.position (cur.position + 1) rest
      return (.str (String.ofList cs), after)
    | '[' :: _ =>
      if depth = 0 then .error .depth
      else
        let cur := (cur.advance 1).skip
        match cur.rest with
        | ']' :: _ => .ok (.list [], cur.advance 1)
        | _ => do
          let (items, after) ← readItems fuel (depth - 1) cur
          return (.list items, after)
    | '\x7b' :: _ =>
      if depth = 0 then .error .depth
      else
        let cur := (cur.advance 1).skip
        match cur.rest with
        | '\x7d' :: _ => .ok (.obj [], cur.advance 1)
        | _ => do
          let (fields, after) ← readFields fuel (depth - 1) cur
          return (.obj (Fields.ofList fields), after)
    | _ => readScalar cur

/-- Reads the items of a list up to its end. -/
def readItems (fuel depth : Nat) (cur : Cursor) : Except Fault (List Value × Cursor) :=
  match fuel with
  | 0 => .error .depth
  | fuel + 1 => do
    let (v, after) ← readValue fuel depth cur
    let after := after.skip
    match after.rest with
    | ']' :: _ => return ([v], after.advance 1)
    | ',' :: _ =>
      let (vs, last) ← readItems fuel depth (after.advance 1).skip
      return (v :: vs, last)
    | _ => throw (.invalid after.position)

/-- Reads the fields of an object up to its end. -/
def readFields (fuel depth : Nat) (cur : Cursor) :
    Except Fault (List (String × Value) × Cursor) :=
  match fuel with
  | 0 => .error .depth
  | fuel + 1 =>
    match cur.rest with
    | '"' :: rest => do
      let (key, colon) ← readString cur.position (cur.position + 1) rest
      let colon := colon.skip
      match colon.rest with
      | ':' :: _ =>
        let (v, after) ← readValue fuel depth (colon.advance 1).skip
        let field := (String.ofList key, v)
        let after := after.skip
        match after.rest with
        | '\x7d' :: _ => return ([field], after.advance 1)
        | ',' :: _ =>
          let (fs, last) ← readFields fuel depth (after.advance 1).skip
          return (field :: fs, last)
        | _ => throw (.invalid after.position)
      | _ => throw (.invalid colon.position)
    | _ => .error (.invalid cur.position)

end

/-- The value of a JSON text. -/
def read (s : String) : Except Fault Value := do
  let cs := s.toList
  if cs.head? == some (Char.ofNat 0xfeff) then throw (.invalid 0)
  let (v, after) ← readValue (2 * cs.length + 2) maxDepth (Cursor.skip ⟨cs, 0⟩)
  match after.skip with
  | ⟨[], _⟩ => return v
  | ⟨_, p⟩ => throw (.invalid p)

end TaskAutomation.Json
