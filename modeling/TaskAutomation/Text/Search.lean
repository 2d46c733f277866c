/-!
# Searching texts

* `occursIn needle haystack` : the first text is a part of the second.
-/

namespace TaskAutomation.Text

/-- The first text is a part of the second. -/
def occursIn (needle : List Char) : List Char → Bool
  | [] => needle.isEmpty
  | c :: rest => needle.isPrefixOf (c :: rest) || occursIn needle rest

end TaskAutomation.Text
