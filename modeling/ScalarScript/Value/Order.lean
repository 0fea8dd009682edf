import ScalarScript.Value

/-!
# `ScalarScript.Value.Order`: comparing values

Two integers are compared as integers and two strings by their code
points; any other two numbers are compared as the doubles nearest to
them. Numbers and strings have no order between them, and the other
values have none at all, but any two values are equal or not.
-/

set_option autoImplicit false

namespace ScalarScript

/-- What comparing two values gives. -/
inductive Comparison where
  /-- The values are of types without an order between them. -/
  | incomparable
  /-- One of two numbers is not a number. -/
  | unordered
  | ordered (o : Ordering)
  deriving DecidableEq, Repr

/-- The order of two doubles. -/
def compareFloats (x y : Float) : Comparison :=
  if x < y then .ordered .lt
  else if x == y then .ordered .eq
  else if y < x then .ordered .gt
  else .unordered

namespace Value

/-- Whether two values are equal. -/
def equal : Value → Value → Bool
  | int a, int b => a == b
  | string s, string t => s == t
  | bool a, bool b => a == b
  | nothing, nothing => true
  | v, w =>
    match v.toFloat?, w.toFloat? with
    | some x, some y => x == y
    | _, _ => false

/-- The order of two values. -/
def compare : Value → Value → Comparison
  | int a, int b => .ordered (Ord.compare a.toInt b.toInt)
  | string s, string t => .ordered (compareOfLessAndEq s t)
  | v, w =>
    match v.toFloat?, w.toFloat? with
    | some x, some y => compareFloats x y
    | _, _ => .incomparable

end Value

/-- Whether an operator other than `==` and `!=` holds of two values in
this order. -/
def ComparisonOp.holds : ComparisonOp → Ordering → Bool
  | .less, .lt | .lessEqual, .lt | .lessEqual, .eq => true
  | .greater, .gt | .greaterEqual, .gt | .greaterEqual, .eq => true
  | _, _ => false

end ScalarScript
