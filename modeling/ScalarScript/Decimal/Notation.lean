import ScalarScript.Decimal.Shortest

/-!
# `ScalarScript.Decimal.Notation`: the text of a double

Numbers are written positionally, never with an exponent. A value of
the language that is an integer shows all its digits and one zero after
the point; every other finite value shows the fewest digits that read
back. A number inside a token shows the fewest digits in either case.
The sign of zero is written, the sign of what is not a number is not.
-/

set_option autoImplicit false

namespace ScalarScript.Double

/-- A text with its sign in front. -/
def signed (negative : Bool) (text : String) : String :=
  if negative then "-" ++ text else text

/-- The text with the fewest digits that read back. -/
def shortestText : Double → String
  | .nan => "NaN"
  | .infinite negative => signed negative "inf"
  | .finite negative m q =>
    signed negative (if m = 0 then "0" else (Decimal.shortest m q).positional)

/-- The text of a value: an integer in full and with `.0`, any other
number by its shortest text. -/
def valueText : Double → String
  | .finite negative m q =>
    match naturalOf? m q with
    | some n => signed negative (toString n ++ ".0")
    | none => shortestText (.finite negative m q)
  | d => shortestText d

end ScalarScript.Double
