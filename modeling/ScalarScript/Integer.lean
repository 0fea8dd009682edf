/-!
# `ScalarScript.Integer`: the integers of the language

An integer is a 64-bit signed number. Arithmetic on integers is exact:
a result outside the 64-bit range is refused, never wrapped. A text
denotes an integer when it is an optional sign and one or more ASCII
digits whose value is in range.
-/

set_option autoImplicit false

namespace ScalarScript.Integer

/-- The least integer, `-2 ^ 63`. -/
def least : Int := -9223372036854775808

/-- The greatest integer, `2 ^ 63 - 1`. -/
def greatest : Int := 9223372036854775807

/-- The 64-bit integer with the value `n`, if `n` is in range. -/
def ofInt? (n : Int) : Option Int64 :=
  if least ≤ n ∧ n ≤ greatest then some (Int64.ofInt n) else none

/-- The exact sum, if it is in range. -/
def add? (a b : Int64) : Option Int64 :=
  ofInt? (a.toInt + b.toInt)

/-- The exact product, if it is in range. -/
def mul? (a b : Int64) : Option Int64 :=
  ofInt? (a.toInt * b.toInt)

/-- The exact opposite, if it is in range. -/
def neg? (a : Int64) : Option Int64 :=
  ofInt? (-a.toInt)

/-- The nearest double, a tie going to the even one. -/
def toFloat (a : Int64) : Float :=
  Float.ofInt a.toInt

/-- The decimal text of an integer. -/
def text (a : Int64) : String :=
  toString a.toInt

/-- The value of a run of decimal digits, the first one weighing most. -/
def ofDigits (digits : List Char) : Nat :=
  digits.foldl (fun n d => 10 * n + (d.toNat - '0'.toNat)) 0

/-- The natural number that one or more ASCII digits denote. -/
def readNat? (cs : List Char) : Option Nat :=
  if cs ≠ [] ∧ cs.all Char.isDigit then some (ofDigits cs) else none

/-- The integer that a sign and digits denote, if it is in range. The
sign may be left out. -/
def read? : List Char → Option Int64
  | '-' :: digits => (readNat? digits).bind fun n => ofInt? (-n)
  | '+' :: digits => (readNat? digits).bind fun n => ofInt? n
  | digits => (readNat? digits).bind fun n => ofInt? n

end ScalarScript.Integer
