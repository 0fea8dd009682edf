import ScalarScript.Value
import ScalarScript.Decimal.Reading
import ScalarScript.Text.Blank

/-!
# `ScalarScript.Value.Conversion`: conversions that a program asks for

A conversion gives exactly the value it is asked for, or fails: a double
becomes an integer only if it is equal to one in range, and a text only
if all of it, blanks at its ends apart, denotes a number.
-/

set_option autoImplicit false

namespace ScalarScript.Value

/-- The first double beyond the integers, `2 ^ 63`. Its opposite is the
least of them. -/
def integerBound : Float := 9223372036854775808.0

/-- The integer that a double is equal to, if it is in range: the double
has nothing behind the point and is within the bounds. -/
def integerOfFloat? (x : Float) : Option Int64 :=
  let d := Double.ofFloat x
  if d.fraction.isZero ∧ -integerBound ≤ x ∧ x < integerBound then some d.toInt64 else none

/-- The value as an integer. -/
def toIntegerValue? : Value → Option Value
  | int n => some (int n)
  | float x => (integerOfFloat? x).map int
  | string s => (Integer.read? (Text.trim s.toList)).map int
  | bool b => some (int (if b then 1 else 0))
  | nothing => none

/-- The value as a double. -/
def toFloatValue? : Value → Option Value
  | int n => some (float (Integer.toFloat n))
  | float x => some (float x)
  | string s => (Decimal.read? (Text.trim s.toList)).map float
  | bool b => some (float (if b then 1.0 else 0.0))
  | nothing => none

/-- The value as a string. -/
def toStringValue? : Value → Option Value
  | nothing => none
  | v => some (string v.text)

end ScalarScript.Value
