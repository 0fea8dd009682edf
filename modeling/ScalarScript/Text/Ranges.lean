/-!
# `ScalarScript.Text.Ranges`: sets of characters as ranges

A character class is an ascending list of ranges of code points. The
look-up reads the list from its start and stops at the first range
that begins beyond the code point, so ASCII is decided at once.
-/

set_option autoImplicit false

namespace ScalarScript.Text

/-- Whether a code point lies in one of the ranges, which ascend. Both
ends of a range belong to it. -/
def inRanges : List (Nat × Nat) → Nat → Bool
  | [], _ => false
  | (low, high) :: rest, n =>
    if n < low then false else n ≤ high || inRanges rest n

end ScalarScript.Text
