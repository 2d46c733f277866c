/-!
# Blank characters

* `isBlank c` : white space of any script, and the four separators of information;
* `isSpace c` : white space of any script;
* `trim blank s` : a text without the blanks at its ends.
-/

namespace TaskAutomation.Text

/-- White space of any script. -/
def isSpace (c : Char) : Bool :=
  let n := c.toNat
  (9 ≤ n && n ≤ 13) || n == 32 || n == 0x85 || n == 0xa0 || n == 0x1680
    || (0x2000 ≤ n && n ≤ 0x200a) || n == 0x2028 || n == 0x2029 || n == 0x202f || n == 0x205f
    || n == 0x3000

/-- White space, or one of the separators of information `U+001C` to `U+001F`. -/
def isBlank (c : Char) : Bool := isSpace c || (0x1c ≤ c.toNat && c.toNat ≤ 0x1f)

/-- The characters without the leading and trailing ones that are blank. -/
def trimList (blank : Char → Bool) (cs : List Char) : List Char :=
  ((cs.dropWhile blank).reverse.dropWhile blank).reverse

/-- A text without the blanks at its ends. -/
def trim (s : String) : String := String.ofList (trimList isBlank s.toList)

end TaskAutomation.Text
