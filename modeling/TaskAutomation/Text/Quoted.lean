import TaskAutomation.Text.Printable

/-!
# Quoted text

* `quoted s` : a text between quotes, as it is shown inside a list or a message: single quotes
  unless the text holds one and no double quote; the quote in use, the backslash and every character
  that is not printable are escaped;
* `quotedAscii s` : the same with every character beyond ASCII escaped.
-/

namespace TaskAutomation.Text

/-- A number in lower-case hexadecimal digits, filled with zeros to a width. -/
def hex (width n : Nat) : List Char :=
  let ds := Nat.toDigits 16 n
  List.replicate (width - ds.length) '0' ++ ds

/-- One character of a quoted text, given which characters are shown as they are. -/
def quotedChar (shows : Char → Bool) (quote c : Char) : List Char :=
  if c == quote || c == '\\' then ['\\', c]
  else if c == '\n' then ['\\', 'n']
  else if c == '\r' then ['\\', 'r']
  else if c == '\t' then ['\\', 't']
  else if shows c then [c]
  else if c.toNat < 0x100 then '\\' :: 'x' :: hex 2 c.toNat
  else if c.toNat < 0x10000 then '\\' :: 'u' :: hex 4 c.toNat
  else '\\' :: 'U' :: hex 8 c.toNat

/-- A text between quotes, given which characters are shown as they are. -/
def quotedBy (shows : Char → Bool) (s : String) : String :=
  let cs := s.toList
  let quote := if cs.contains '\'' && !cs.contains '"' then '"' else '\''
  String.ofList (quote :: cs.flatMap (quotedChar shows quote) ++ [quote])

/-- A text between quotes. -/
def quoted (s : String) : String := quotedBy isPrintable s

/-- A text between quotes, in ASCII. -/
def quotedAscii (s : String) : String :=
  quotedBy (fun c => isPrintable c && decide (c.toNat < 0x80)) s

end TaskAutomation.Text
