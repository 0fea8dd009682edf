import ScalarScript.Text.Ranges

/-!
# `ScalarScript.Text.Blank`: white space

The Unicode property `White_Space`. Blanks separate tokens, and the
conversions from text to numbers drop them at both ends.
-/

set_option autoImplicit false

namespace ScalarScript.Text

/-- The ranges of the property `White_Space`, ascending and apart. -/
def blankRanges : List (Nat × Nat) :=
  [
    (0x9, 0xD), (0x20, 0x20), (0x85, 0x85), (0xA0, 0xA0), (0x1680, 0x1680), (0x2000, 0x200A),
    (0x2028, 0x2029), (0x202F, 0x202F), (0x205F, 0x205F), (0x3000, 0x3000)
  ]

/-- Whether a character is white space. -/
def isBlank (c : Char) : Bool :=
  inRanges blankRanges c.toNat

/-- A text without the blanks at its two ends. -/
def trim (cs : List Char) : List Char :=
  ((cs.dropWhile isBlank).reverse.dropWhile isBlank).reverse

end ScalarScript.Text
