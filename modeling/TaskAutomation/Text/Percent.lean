/-!
# Percent escapes

* `percentDecode s` : a text in which a percent sign with two hexadecimal digits stands for a byte,
  read as UTF-8; bytes that are no UTF-8 become replacement characters.
-/

namespace TaskAutomation.Text

/-- The value of a hexadecimal digit. -/
def hexValue? (c : Char) : Option Nat :=
  if c.isDigit then some (c.toNat - 48)
  else if 'a' ≤ c && c ≤ 'f' then some (c.toNat - 87)
  else if 'A' ≤ c && c ≤ 'F' then some (c.toNat - 55)
  else none

/-- The byte of an escape whose percent sign comes just before this text. -/
def escapedByte? : List Char → Option UInt8
  | a :: b :: _ => do return UInt8.ofNat (16 * (← hexValue? a) + (← hexValue? b))
  | _ => none

/-- The bytes of a text with escapes. -/
def escapedBytes : List Char → List UInt8
  | [] => []
  | c :: rest =>
    match if c == '%' then escapedByte? rest else none with
    | some b => b :: escapedBytes (rest.drop 2)
    | none => c.toString.toUTF8.toList ++ escapedBytes rest
termination_by cs => cs.length
decreasing_by
  all_goals simp only [List.length_cons, List.length_drop]
  all_goals omega

/-- The character of a byte that stands alone. -/
def byteChar (b : UInt8) : Char := if b < 0x80 then Char.ofNat b.toNat else Char.ofNat 0xfffd

/-- A text with its escapes read. -/
def percentDecode (s : String) : String :=
  let bytes := escapedBytes s.toList
  (String.fromUTF8? ⟨bytes.toArray⟩).getD (String.ofList (bytes.map byteChar))

end TaskAutomation.Text
