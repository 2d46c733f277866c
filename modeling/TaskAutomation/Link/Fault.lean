import TaskAutomation.Text.Quoted

/-!
# Faults of address templates

* `Link.Fault` : why an address template gives no address; `Fault.kind` is the tag of a fault and
  `Fault.message` its words.
-/

namespace TaskAutomation.Link

/-- Why an address template gives no address. -/
inductive Fault where
  /-- A brace stands alone. -/
  | loneBrace (c : Char)
  /-- A field does not end. -/
  | openField
  /-- A field begins within the name of another. -/
  | braceInName
  /-- The text ends where a conversion should stand. -/
  | noConversion
  /-- A conversion has more than one character. -/
  | longConversion
  /-- No conversion has this character. -/
  | unknownConversion (c : Char)
  /-- The padding of a field does not end. -/
  | openPadding
  /-- Fields stand within fields of fields. -/
  | tooDeep
  /-- A numeral is too large to count with. -/
  | manyDigits
  /-- A step into a value has no name. -/
  | emptyStep
  /-- Something other than a step follows a step in brackets. -/
  | noStep
  /-- There are no values by position. -/
  | noPosition (index : Nat)
  /-- There is no value of this name. -/
  | unknownName (name : String)
  /-- A text has no field of this name. -/
  | noAttribute (name : String)
  /-- A text ends before this position. -/
  | pastEnd
  /-- A position in a text is no number. -/
  | noIndex
  /-- A comma and an underscore are both asked for. -/
  | twoSeparators
  /-- Groups of digits are asked for. -/
  | separator (c type : Char)
  /-- A point without a number. -/
  | noPrecision
  /-- A padding that cannot be read. -/
  | badPadding (spec : String)
  /-- No text is shown in this way. -/
  | unknownType (c : Char)
  /-- A blank is asked for in place of a sign. -/
  | blankSign
  /-- A sign is asked for. -/
  | sign
  /-- A zero without sign is asked for. -/
  | zeroSign
  /-- Another form is asked for. -/
  | otherForm
  /-- Padding between sign and digits is asked for. -/
  | signAlign
  deriving DecidableEq, Repr

namespace Fault

/-- The tag of a fault. -/
def kind : Fault → String
  | .noPosition _ | .pastEnd => "IndexError"
  | .unknownName _ => "KeyError"
  | .noAttribute _ => "AttributeError"
  | .noIndex => "TypeError"
  | _ => "ValueError"

/-- A character as it is named in a message. -/
def charText (c : Char) : String :=
  if 32 < c.toNat ∧ c.toNat < 127 then c.toString
  else String.ofList ('\\' :: 'x' :: Text.hex 1 c.toNat)

/-- The words for a fault. -/
def message : Fault → String
  | .loneBrace c => "Single '" ++ c.toString ++ "' encountered in format string"
  | .openField => "expected '\x7d' before end of string"
  | .braceInName => "unexpected '\x7b' in field name"
  | .noConversion => "end of string while looking for conversion specifier"
  | .longConversion => "expected ':' after conversion specifier"
  | .unknownConversion c => "Unknown conversion specifier " ++ charText c
  | .openPadding => "unmatched '\x7b' in format spec"
  | .tooDeep => "Max string recursion exceeded"
  | .manyDigits => "Too many decimal digits in format string"
  | .emptyStep => "Empty attribute in format string"
  | .noStep => "Only '.' or '[' may follow ']' in format field specifier"
  | .noPosition index =>
    "Replacement index " ++ toString index ++ " out of range for positional args tuple"
  | .unknownName name => Text.quoted name
  | .noAttribute name => "'str' object has no attribute '" ++ name ++ "'"
  | .pastEnd => "string index out of range"
  | .noIndex => "string indices must be integers, not 'str'"
  | .twoSeparators => "Cannot specify both ',' and '_'."
  | .separator c type => "Cannot specify '" ++ c.toString ++ "' with '" ++ charText type ++ "'."
  | .noPrecision => "Format specifier missing precision"
  | .badPadding spec => "Invalid format specifier '" ++ spec ++ "' for object of type 'str'"
  | .unknownType c => "Unknown format code '" ++ charText c ++ "' for object of type 'str'"
  | .blankSign => "Space not allowed in string format specifier"
  | .sign => "Sign not allowed in string format specifier"
  | .zeroSign => "Negative zero coercion (z) not allowed in string format specifier"
  | .otherForm => "Alternate form (#) not allowed in string format specifier"
  | .signAlign => "'=' alignment not allowed in string format specifier"

end Fault

end TaskAutomation.Link
