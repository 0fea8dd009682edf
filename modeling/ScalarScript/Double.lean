/-!
# `ScalarScript.Double`: what a floating-point number stands for

A 64-bit float is not a number, an infinity, or a sign with a natural
number `m` and an exponent `q` that stand for `m · 2 ^ q`. `ofFloat`
reads this off the bits, and everything that must be exact is then
plain arithmetic on `m` and `q`: the parts of a float in front of the
point and behind it, the integer it is equal to, and its decimal text.
-/

set_option autoImplicit false

namespace ScalarScript

/-- What a 64-bit float stands for. -/
inductive Double where
  | nan
  | infinite (negative : Bool)
  /-- The number `m · 2 ^ q`, or its opposite. Zero has a sign too. -/
  | finite (negative : Bool) (m : Nat) (q : Int)
  deriving DecidableEq, Repr

namespace Double

/-- The weight of the leading bit of a normal number, `2 ^ 52`. -/
def leadingBit : Nat := 4503599627370496

/-- The meaning of a sign, a biased exponent and a fraction. The largest
exponent marks infinities and what is not a number; the least one marks
the numbers without the implicit leading bit. -/
def ofFields (negative : Bool) (exponent fraction : Nat) : Double :=
  if exponent = 2047 then
    if fraction = 0 then .infinite negative else .nan
  else if exponent = 0 then .finite negative fraction (-1074)
  else .finite negative (leadingBit + fraction) (exponent - 1075)

/-- The meaning of 64 bits: one of sign, eleven of exponent, 52 of
fraction. -/
def ofBits (bits : Nat) : Double :=
  ofFields (bits / leadingBit / 2048 = 1) (bits / leadingBit % 2048) (bits % leadingBit)

/-- What a float stands for. -/
def ofFloat (x : Float) : Double :=
  ofBits x.toBits.toNat

/-- The natural number equal to `m · 2 ^ q`, if there is one. -/
def naturalOf? (m : Nat) (q : Int) : Option Nat :=
  if 0 ≤ q then some (m * Nat.pow 2 q.toNat)
  else
    let d := Nat.pow 2 (-q).toNat
    if m % d = 0 then some (m / d) else none

/-- The natural number in front of the point of `m · 2 ^ q`. -/
def wholePart (m : Nat) (q : Int) : Nat :=
  if 0 ≤ q then m * Nat.pow 2 q.toNat else m / Nat.pow 2 (-q).toNat

/-- What is left of `m` behind the point of `m · 2 ^ q`. -/
def remainder (m : Nat) (q : Int) : Nat :=
  if 0 ≤ q then 0 else m % Nat.pow 2 (-q).toNat

/-- The part of a double behind the point. An infinity has none. -/
def fraction : Double → Double
  | .finite negative m q => .finite negative (remainder m q) q
  | _ => .nan

/-- Whether a double is a zero, of either sign. -/
def isZero : Double → Bool
  | .finite _ m _ => m = 0
  | _ => false

/-- The integer in front of the point, held within 64 bits: a number
beyond them becomes the last one that is not, and what is not a number
becomes 0. -/
def toInt64 : Double → Int64
  | .nan => 0
  | .infinite negative => if negative then Int64.minValue else Int64.maxValue
  | .finite negative m q =>
    Int64.ofIntClamp (if negative then -(wholePart m q : Int) else wholePart m q)

end Double

end ScalarScript
