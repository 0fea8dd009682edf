import Mathlib.Algebra.Ring.Int.Defs
import ScalarScript.Integer

/-!
# `ScalarScript.Proofs.Integer`: which numbers are integers of the language

The integers of the language are the numbers of 64 bits, and `InRange`
says which those are. Every result that has to be in range goes through
`ofInt?`, so its two outcomes (`ofInt?_of_inRange`,
`ofInt?_of_not_inRange`) are all that the proofs about arithmetic know of
the representation.
-/

set_option autoImplicit false

namespace ScalarScript.Integer

/-- The number is an integer of 64 bits, one of them the sign. -/
def InRange (z : Int) : Prop :=
  -2 ^ 63 ≤ z ∧ z ≤ 2 ^ 63 - 1

instance (z : Int) : Decidable (InRange z) :=
  inferInstanceAs (Decidable (_ ∧ _))

/-- The bounds that the arithmetic checks are those of the range. -/
theorem inRange_iff {z : Int} : InRange z ↔ least ≤ z ∧ z ≤ greatest := by
  simp only [InRange, least, greatest]
  omega

/-- A 64-bit integer is in range. -/
theorem inRange_toInt (n : Int64) : InRange n.toInt := by
  have hlow := n.le_toInt
  have hhigh := n.toInt_lt
  simp only [InRange]
  omega

/-- An integer in range is kept as it is. -/
theorem toInt_ofInt {z : Int} (h : InRange z) : (Int64.ofInt z).toInt = z := by
  simp only [InRange] at h
  exact Int64.toInt_ofInt_of_le (by omega) (by omega)

/-- An integer in range has a 64-bit form. -/
theorem ofInt?_of_inRange {z : Int} (h : InRange z) : ofInt? z = some (Int64.ofInt z) :=
  if_pos (inRange_iff.mp h)

/-- An integer out of range has none. -/
theorem ofInt?_of_not_inRange {z : Int} (h : ¬InRange z) : ofInt? z = none :=
  if_neg fun hz => h (inRange_iff.mpr hz)

end ScalarScript.Integer
