import Mathlib
import ScalarScript.Builtin
import ScalarScript.Proofs.Double.Value
import ScalarScript.Proofs.Integer

/-!
# `ScalarScript.Proofs.Double.Conversion`: `to_int` of a double

`to_int` looks at three things before it converts a double: that there is
nothing behind the point, and that the double lies between two bounds,
the lower one included. The conversion itself cuts off what is behind the
point and holds the rest within 64 bits. `Builtin.call_toInt_float` says
that the two fit together, for every pattern of 64 bits: what passes is
exactly what is an integer in range, and nothing is cut off or held back.

The pattern is read by the rule of the binary64 format (`binary64?`),
which is stated on its bits alone.

`pack_unpack` and what else is used here of the fields of a float is in a
part of the library that no smaller import than the whole one reaches.
-/

set_option autoImplicit false

namespace ScalarScript

namespace Double

/-! ### The two parts of a double -/

section

variable (m : Nat) (q : Int)

/-- A scaled mantissa is its whole part and what is behind the point. -/
theorem scaled_eq_add : (m : ℚ) * 2 ^ q = wholePart m q + remainder m q * 2 ^ q := by
  unfold wholePart remainder
  split
  · rename_i hq
    obtain ⟨k, rfl⟩ := Int.eq_ofNat_of_zero_le hq
    simp
  · rename_i hq
    obtain ⟨k, hk⟩ := Int.eq_ofNat_of_zero_le (by omega : 0 ≤ -q)
    obtain rfl : q = -k := by omega
    have hdiv : (m : ℚ) = 2 ^ k * (m / 2 ^ k : ℕ) + (m % 2 ^ k : ℕ) := by
      exact_mod_cast (Nat.div_add_mod m (2 ^ k)).symm
    simp only [neg_neg, Int.toNat_natCast, Nat.pow_eq, zpow_neg, zpow_natCast]
    rw [hdiv]
    field_simp

/-- What is behind the point is less than one. -/
theorem remainder_scaled_lt_one : (remainder m q : ℚ) * 2 ^ q < 1 := by
  unfold remainder
  split
  · simp
  · rename_i hq
    obtain ⟨k, hk⟩ := Int.eq_ofNat_of_zero_le (by omega : 0 ≤ -q)
    obtain rfl : q = -k := by omega
    have hlt : m % 2 ^ k < 2 ^ k := Nat.mod_lt m (by positivity)
    simp only [neg_neg, Int.toNat_natCast, Nat.pow_eq, zpow_neg, zpow_natCast]
    rw [mul_inv_lt_iff₀ (by positivity), one_mul]
    exact_mod_cast hlt

/-- What is in front of the point is the number rounded down. -/
theorem floor_scaled : ⌊(m : ℚ) * 2 ^ q⌋ = wholePart m q := by
  rw [Int.floor_eq_iff, scaled_eq_add m q]
  have hnonneg : (0 : ℚ) ≤ remainder m q * 2 ^ q := by positivity
  have hlt := remainder_scaled_lt_one m q
  push_cast
  constructor <;> linarith

/-- There is nothing behind the point exactly when the number is an
integer, which is then the one in front. -/
theorem remainder_eq_zero_iff (z : ℤ) :
    (remainder m q = 0 ∧ (wholePart m q : ℤ) = z) ↔ (m : ℚ) * 2 ^ q = z := by
  constructor
  · rintro ⟨hzero, rfl⟩
    rw [scaled_eq_add, hzero]
    push_cast
    ring
  · intro hz
    have hwhole : (wholePart m q : ℤ) = z := by
      rw [← floor_scaled, hz, Int.floor_intCast]
    refine ⟨?_, hwhole⟩
    have hsum := scaled_eq_add m q
    rw [hz, ← hwhole] at hsum
    push_cast at hsum
    have hscaled : (remainder m q : ℚ) * 2 ^ q = 0 := by linarith
    have hpow : (2 : ℚ) ^ q ≠ 0 := by positivity
    exact_mod_cast (mul_eq_zero.mp hscaled).resolve_right hpow

end

/-- A double is an integer exactly if nothing is behind its point, and
then it is the whole part with the sign. -/
theorem rational_eq_int_iff (negative : Bool) (m : Nat) (q : Int) (z : ℤ) :
    rational negative m q = z ↔
      remainder m q = 0 ∧ (if negative then -(wholePart m q : ℤ) else wholePart m q) = z := by
  cases negative with
  | false => exact (remainder_eq_zero_iff m q z).symm
  | true =>
    have hneg : rational true m q = z ↔ (m : ℚ) * 2 ^ q = (-z : ℤ) := by
      rw [rational, if_pos rfl, neg_eq_iff_eq_neg]
      push_cast
      rfl
    rw [hneg, ← remainder_eq_zero_iff, if_pos rfl, neg_eq_iff_eq_neg]

/-- There is nothing behind the point of the doubles that are integers,
and of no others. -/
theorem isZero_fraction_iff (d : Double) :
    d.fraction.isZero = true ↔ ∃ z : ℤ, d.value? = some (.ofRat z) := by
  cases d with
  | nan => simp [fraction, isZero, value?]
  | infinite negative =>
    cases negative with
    | true => simp [fraction, isZero, value?, (Extended.bot_lt_ofRat _).ne]
    | false => simp [fraction, isZero, value?, (Extended.ofRat_lt_top _).ne']
  | finite negative m q =>
    simp [fraction, isZero, value?, rational_eq_int_iff]

/-- Nothing is cut off from a double that is an integer. -/
theorem toInt64_of_value {d : Double} {z : ℤ} (h : d.value? = some (.ofRat z)) :
    d.toInt64 = Int64.ofIntClamp z := by
  cases d with
  | nan => cases h
  | infinite negative =>
    cases negative with
    | true => exact absurd (Option.some.inj h) (Extended.bot_lt_ofRat _).ne
    | false => exact absurd (Option.some.inj h) (Extended.ofRat_lt_top _).ne'
  | finite negative m q =>
    have hz : rational negative m q = z := by simpa [value?] using h
    rw [toInt64, ((rational_eq_int_iff negative m q z).mp hz).2]

end Double

/-! ### The bounds -/

open Value (integerBound integerOfFloat?)

/-- The upper bound of the check is `2 ^ 63`. -/
theorem number_integerBound : numberOfFloat? integerBound = some (.ofRat (2 ^ 63)) := by
  have hfields : Double.ofFloat integerBound = .finite false 4503599627370496 11 := by decide
  rw [numberOfFloat?, hfields, Double.value?, Double.rational]
  norm_num

/-- The lower bound of the check is `-2 ^ 63`. -/
theorem number_neg_integerBound : numberOfFloat? (-integerBound) = some (.ofRat (-2 ^ 63)) := by
  have hfields : Double.ofFloat (-integerBound) = .finite true 4503599627370496 11 := by decide
  rw [numberOfFloat?, hfields, Double.value?, Double.rational]
  norm_num

/-- The bounds let through just the integers of 64 bits. -/
theorem bounds_iff_inRange {x : Float} {z : ℤ} (hz : numberOfFloat? x = some (.ofRat z)) :
    (-integerBound ≤ x ∧ x < integerBound) ↔ Integer.InRange z := by
  have hlow : (-2 ^ 63 : ℚ) ≤ z ↔ -2 ^ 63 ≤ z := by exact_mod_cast Iff.rfl
  have hhigh : (z : ℚ) < 2 ^ 63 ↔ z < 2 ^ 63 := by exact_mod_cast Iff.rfl
  rw [le_of_numbers number_neg_integerBound hz, lt_of_numbers hz number_integerBound,
    Extended.ofRat_le_ofRat, Extended.ofRat_lt_ofRat, hlow, hhigh, Integer.InRange,
    Int.le_sub_one_iff]

/-- A double becomes the integer that it is equal to, and no other. -/
theorem integerOfFloat?_eq_some_iff (x : Float) (n : Int64) :
    integerOfFloat? x = some n ↔ numberOfFloat? x = some (.ofRat n.toInt) := by
  simp only [integerOfFloat?, Option.ite_none_right_eq_some, Option.some_inj]
  constructor
  · rintro ⟨⟨hzero, hbounds⟩, hn⟩
    obtain ⟨z, hz⟩ := (Double.isZero_fraction_iff _).mp hzero
    have hrange := (bounds_iff_inRange hz).mp hbounds
    rw [Double.toInt64_of_value hz, ← Integer.toInt_ofInt hrange, Int64.ofIntClamp_toInt] at hn
    rw [← hn, Integer.toInt_ofInt hrange]
    exact hz
  · intro hn
    refine ⟨⟨(Double.isZero_fraction_iff _).mpr ⟨_, hn⟩, ?_⟩, ?_⟩
    · exact (bounds_iff_inRange hn).mpr (Integer.inRange_toInt n)
    · rw [Double.toInt64_of_value hn, Int64.ofIntClamp_toInt]

/-! ### Patterns of 64 bits -/

/-- The number that 64 bits denote in the binary64 format: one bit of sign,
eleven of exponent and 52 of fraction. There is none where they denote what
is not a number. -/
def binary64? (bits : UInt64) : Option Extended :=
  let negative := bits.toBitVec.msb
  let exponent := (bits.toBitVec.extractLsb' 52 11).toNat
  let fraction := (bits.toBitVec.extractLsb' 0 52).toNat
  let sign : ℚ := if negative then -1 else 1
  if exponent = 2047 then
    if fraction = 0 then some (if negative then ⊥ else ⊤) else none
  else if exponent = 0 then some (.ofRat (sign * 2 ^ (-1022 : ℤ) * (fraction / 2 ^ 52)))
  else some (.ofRat (sign * 2 ^ (exponent - 1023 : ℤ) * (1 + fraction / 2 ^ 52)))

namespace Double

open Float.Model (Format)
open Float.Model.UnpackedFloat

/-- To pack what was unpacked changes nothing but the pattern of what is
not a number. -/
theorem unpack_pack_unpack (b : BitVec Format.binary64.numBits) :
    unpack Format.binary64 (pack Format.binary64 (unpack Format.binary64 b)) =
      unpack Format.binary64 b := by
  rw [pack_unpack]
  split
  · rename_i hnan
    rw [isNaNBits, decide_eq_true_iff] at hnan
    rw [unpack_packedNaN, unpack, if_pos hnan.1, if_neg hnan.2]
  · rfl

/-- A float that is made of 64 bits has the fields that these bits have. -/
theorem ofFloat_ofBits (bits : UInt64) : ofFloat (Float.ofBits bits) = ofBits bits.toNat :=
  calc ofFloat (Float.ofBits bits)
      = ofUnpacked (unpack Format.binary64
          (pack Format.binary64 (unpack Format.binary64 bits.toBitVec))) := ofFloat_eq _
    _ = ofUnpacked (unpack Format.binary64 bits.toBitVec) := by rw [unpack_pack_unpack]
    _ = ofBits bits.toNat := (ofBits_eq bits.toBitVec).symm

/-- A subnormal double is the fraction alone, at the least exponent. -/
theorem rational_subnormal (negative : Bool) (fraction : Nat) :
    rational negative fraction (-1074) =
      (if negative then -1 else 1) * 2 ^ (-1022 : ℤ) * (fraction / 2 ^ 52) := by
  have hpow : (2 : ℚ) ^ (-1074 : ℤ) = 2 ^ (-1022 : ℤ) / 2 ^ 52 := by
    rw [← zpow_natCast, ← zpow_sub₀ (by norm_num)]
    norm_num
  rw [rational, hpow]
  split <;> ring

/-- A normal double is one and a fraction, at its exponent. -/
theorem rational_normal (negative : Bool) (exponent fraction : Nat) :
    rational negative (leadingBit + fraction) (exponent - 1075) =
      (if negative then -1 else 1) * 2 ^ (exponent - 1023 : ℤ) * (1 + fraction / 2 ^ 52) := by
  have hpow : (2 : ℚ) ^ (exponent - 1075 : ℤ) = 2 ^ (exponent - 1023 : ℤ) / 2 ^ 52 := by
    rw [← zpow_natCast, ← zpow_sub₀ (by norm_num)]
    congr 1
    push_cast
    ring
  rw [rational, hpow, leadingBit]
  push_cast
  split <;> field_simp <;> ring

/-- The fields stand for the number that the rule of the format gives. -/
theorem value_ofBits (bits : UInt64) : (ofBits bits.toNat).value? = binary64? bits := by
  have hbits : bits.toBitVec.toNat = bits.toNat := rfl
  have hexponent : (bits.toBitVec.extractLsb' 52 11).toNat = bits.toNat / leadingBit % 2048 := by
    rw [BitVec.extractLsb'_toNat, Nat.shiftRight_eq_div_pow, hbits]
    rfl
  have hfraction : (bits.toBitVec.extractLsb' 0 52).toNat = bits.toNat % leadingBit := by
    rw [BitVec.extractLsb'_toNat, Nat.shiftRight_zero, hbits]
    rfl
  have hsign : bits.toBitVec.msb = decide (bits.toNat / leadingBit / 2048 = 1) := by
    have hlt := bits.toNat_lt
    rw [BitVec.msb_eq_decide, hbits, decide_eq_decide, leadingBit]
    omega
  rw [ofBits, binary64?, hexponent, hfraction, ← hsign, ofFields]
  split
  · split <;> rfl
  · split
    · rw [value?, rational_subnormal]
    · rw [value?, rational_normal]

end Double

/-- A float that is made of 64 bits stands for the number that the rule of
the format gives. -/
theorem number_ofBits (bits : UInt64) : numberOfFloat? (Float.ofBits bits) = binary64? bits := by
  rw [numberOfFloat?, Double.ofFloat_ofBits, Double.value_ofBits]

/-- The conversion gives an integer exactly if the bits stand for it and
it is in range. -/
theorem integerOfFloat?_ofBits_eq_some_iff (bits : UInt64) (n : Int64) :
    integerOfFloat? (.ofBits bits) = some n ↔
      ∃ z : ℤ, binary64? bits = some (.ofRat z) ∧ Integer.InRange z ∧ n.toInt = z := by
  rw [integerOfFloat?_eq_some_iff, number_ofBits]
  constructor
  · intro h
    exact ⟨n.toInt, h, Integer.inRange_toInt n, rfl⟩
  · rintro ⟨z, hz, -, rfl⟩
    exact hz

/-- The conversion gives nothing exactly if the bits stand for no integer
in range. -/
theorem integerOfFloat?_ofBits_eq_none_iff (bits : UInt64) :
    integerOfFloat? (.ofBits bits) = none ↔
      ¬ ∃ z : ℤ, binary64? bits = some (.ofRat z) ∧ Integer.InRange z := by
  rw [Option.eq_none_iff_forall_ne_some]
  constructor
  · rintro h ⟨z, hz, hrange⟩
    exact h (Int64.ofInt z) ((integerOfFloat?_ofBits_eq_some_iff bits _).mpr
      ⟨z, hz, hrange, Integer.toInt_ofInt hrange⟩)
  · intro h n hn
    obtain ⟨z, hz, hrange, -⟩ := (integerOfFloat?_ofBits_eq_some_iff bits n).mp hn
    exact h ⟨z, hz, hrange⟩

/-- `to_int` of a double is exact. For every pattern of 64 bits it gives
the integer that the double is equal to, where there is one in range, and
an error in every other case. -/
theorem Builtin.call_toInt_float (bits : UInt64) (p : Position) (t : Terminal) :
    (∀ n : Int64, Builtin.toInt.call [.float (.ofBits bits)] p t = .ok (.int n) t ↔
      ∃ z : ℤ, binary64? bits = some (.ofRat z) ∧ Integer.InRange z ∧ n.toInt = z) ∧
    (Builtin.toInt.call [.float (.ofBits bits)] p t =
        .error (.castingError .int (.float (.ofBits bits)) p) t ↔
      ¬ ∃ z : ℤ, binary64? bits = some (.ofRat z) ∧ Integer.InRange z) := by
  have hcall : Builtin.toInt.call [.float (.ofBits bits)] p t =
      Builtin.converted .int (.float (.ofBits bits)) p
        ((integerOfFloat? (.ofBits bits)).map .int) t := rfl
  rw [hcall, ← integerOfFloat?_ofBits_eq_none_iff]
  simp only [← integerOfFloat?_ofBits_eq_some_iff]
  cases integerOfFloat? (.ofBits bits) with
  | none => simp [Builtin.converted, Run.fail]
  | some m => simp [Builtin.converted, pure, Run.value]

-- The lower bound is in range and the upper one is not.
example : integerOfFloat? (-integerBound) = some Int64.minValue ∧
    integerOfFloat? integerBound = none := by decide

end ScalarScript
