/-!
# Character classes by their bounds

* `inside bounds c` : a class of characters is given by the increasing list of the code points at
  which membership changes, the first of them being the first member; a character is a member iff
  an odd number of bounds are at most its code point.
-/

namespace TaskAutomation.Text

/-- Membership in the class whose bounds are `bounds`. -/
def inside : List Nat → Char → Bool
  | [], _ => false
  | b :: bounds, c => if c.toNat < b then false else !inside bounds c

end TaskAutomation.Text
