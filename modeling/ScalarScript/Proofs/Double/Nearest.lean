import Mathlib
import ScalarScript.Proofs.Double.Value
import ScalarScript.Proofs.Integer

/-!
# `ScalarScript.Proofs.Double.Nearest`: the double of an integer

The double that an integer is converted to stands for a number
(`number_toFloat`), and no double stands for one that is nearer to the
integer. So the conversion never carries an integer across a double:
what lies on one side of the integer lies on that side of its double, or
is its double (`Nearest.le`, `Nearest.ge`).

A mantissa is rounded after it has been shifted, bit by bit, to 53 bits.
The bits that drop out leave a round bit and a sticky bit, and the two say
on which side of the middle between two mantissas the exact number is
(`Holds`). One shift keeps this (`Holds.shiftRightOne`).

`unpackSign_packComponents` and what else is used here of the fields of a
float is in a part of the library that no smaller import than the whole
one reaches.
-/

set_option autoImplicit false

namespace ScalarScript

namespace Double

open Float.Model (UnpackedFloat Format)
open Float.Model.UnpackedFloat

/-! ### Nearest among the doubles -/

/-- The numbers that a mantissa of 53 bits can hold. -/
def Representable (v : ℚ) : Prop :=
  ∃ j p : Int, |j| < 2 ^ 53 ∧ v = j * 2 ^ p

/-- No number of 53 bits is nearer to `x` than `r` is. -/
def Nearest (r x : ℚ) : Prop :=
  ∀ v, Representable v → |r - x| ≤ |v - x|

/-- What a double can hold and is not above the number is not above the
nearest double either. -/
theorem Nearest.le {r x v : ℚ} (h : Nearest r x) (hv : Representable v) (hvx : v ≤ x) :
    v ≤ r := by
  by_contra hrv
  have hfar := h v hv
  rw [abs_of_nonpos (by linarith), abs_of_nonpos (by linarith)] at hfar
  linarith

/-- What a double can hold and is not below the number is not below the
nearest double either. -/
theorem Nearest.ge {r x v : ℚ} (h : Nearest r x) (hv : Representable v) (hxv : x ≤ v) :
    r ≤ v := by
  by_contra hvr
  have hfar := h v hv
  rw [abs_of_nonneg (by linarith), abs_of_nonneg (by linarith)] at hfar
  linarith

/-- The nearest double of a number that a double can hold is this number. -/
theorem Nearest.eq_of_representable {r x : ℚ} (h : Nearest r x) (hx : Representable x) : r = x :=
  le_antisymm (h.ge hx le_rfl) (h.le hx le_rfl)

/-- Rounding to the nearest keeps the order. -/
theorem Nearest.mono {r s x y : ℚ} (hr : Nearest r x) (hs : Nearest s y) (hr' : Representable r)
    (hs' : Representable s) (hxy : x < y) : r ≤ s := by
  by_contra hsr
  -- Both numbers lie between the two doubles, and each is nearer to the other's double.
  have hsx : s < x := by
    by_contra hxs
    exact hsr (hr.ge hs' (not_lt.mp hxs))
  have hyr : y < r := by
    by_contra hry
    exact hsr (hs.le hr' (not_lt.mp hry))
  have hfar := hr s hs'
  have hfar' := hs r hr'
  rw [abs_of_pos (by linarith), abs_of_neg (by linarith)] at hfar
  rw [abs_of_neg (by linarith), abs_of_pos (by linarith)] at hfar'
  linarith

/-- A double can hold every integer of 53 bits, and also `2 ^ 53`. -/
theorem representable_intCast {z : Int} (hz : |z| ≤ 2 ^ 53) : Representable z := by
  by_cases hlt : |z| < 2 ^ 53
  · exact ⟨z, 0, hlt, by simp⟩
  · -- a power of two needs a single bit
    have habs : |z| = 2 ^ 53 := le_antisymm hz (not_lt.mp hlt)
    rcases abs_eq_abs.mp (habs.trans (abs_of_pos (by norm_num : (0 : Int) < 2 ^ 53)).symm)
      with rfl | rfl
    · exact ⟨1, 53, by norm_num, by norm_num⟩
    · exact ⟨-1, 53, by norm_num, by norm_num⟩

/-- A double can hold the negative of what it can hold. -/
theorem Representable.neg {v : ℚ} (h : Representable v) : Representable (-v) := by
  obtain ⟨j, p, hj, rfl⟩ := h
  exact ⟨-j, p, by rwa [abs_neg], by push_cast; ring⟩

/-- Rounding to the nearest is the same on both sides of zero. -/
theorem Nearest.neg {r x : ℚ} (h : Nearest r x) : Nearest (-r) (-x) := by
  intro v hv
  have hfar := h (-v) hv.neg
  rwa [show -r - -x = -(r - x) by ring, show v - -x = -(-v - x) by ring, abs_neg, abs_neg]

/-- Beyond `2 ^ 52` units the numbers of 53 bits are whole units. -/
theorem Representable.exists_units {v : ℚ} {t : Int} (h : Representable v)
    (hv : 2 ^ 52 * 2 ^ t ≤ |v|) : ∃ k : Int, v = k * 2 ^ t := by
  obtain ⟨j, p, hj, rfl⟩ := h
  have htp : t ≤ p := by
    by_contra hpt
    have hlt : |(j : ℚ) * 2 ^ p| < 2 ^ 52 * 2 ^ t :=
      calc |(j : ℚ) * 2 ^ p| = |(j : ℚ)| * 2 ^ p := by
            rw [abs_mul, abs_of_pos (by positivity : (0 : ℚ) < 2 ^ p)]
        _ < 2 ^ 53 * 2 ^ p :=
            mul_lt_mul_of_pos_right (by exact_mod_cast hj) (by positivity)
        _ = 2 ^ 52 * 2 ^ (p + 1) := by
            rw [zpow_add_one₀ (by norm_num)]
            ring
        _ ≤ 2 ^ 52 * 2 ^ t :=
            mul_le_mul_of_nonneg_left (zpow_le_zpow_right₀ (by norm_num) (by omega))
              (by positivity)
    exact absurd hv (not_le.mpr hlt)
  refine ⟨j * 2 ^ (p - t).toNat, ?_⟩
  have hpow : (2 : ℚ) ^ p = 2 ^ (p - t).toNat * 2 ^ t := by
    rw [← zpow_natCast, ← zpow_add₀ (by norm_num)]
    congr 1
    omega
  rw [hpow]
  push_cast
  ring

/-- Of the whole units, one within half a unit is nearest. -/
theorem abs_sub_le_of_half_unit {r x u : ℚ} {R k : Int} (hr : r = R * u)
    (hhalf : 2 * |r - x| ≤ u) : |r - x| ≤ |k * u - x| := by
  by_cases hk : k = R
  · rw [hk, hr]
  · have hu : 0 ≤ u := by linarith [abs_nonneg (r - x)]
    have hone : u ≤ |k * u - r| :=
      calc u = 1 * u := (one_mul u).symm
        _ ≤ |((k - R : Int) : ℚ)| * u :=
            mul_le_mul_of_nonneg_right
              (by exact_mod_cast Int.one_le_abs (sub_ne_zero.mpr hk)) hu
        _ = |k * u - r| := by
            rw [hr, ← sub_mul, abs_mul, abs_of_nonneg hu]
            push_cast
            rfl
    have htri : |k * u - r| ≤ |k * u - x| + |r - x| :=
      calc |k * u - r| = |(k * u - x) - (r - x)| := by rw [sub_sub_sub_cancel_right]
        _ ≤ |k * u - x| + |r - x| := abs_sub _ _
    linarith

/-- A whole number of units within half a unit of `x` is nearest to `x`
when `x` is at least `2 ^ 52` units. -/
theorem nearest_of_half_unit {R : Nat} {t : Int} {x : ℚ} (hx : 2 ^ 52 * 2 ^ t ≤ x)
    (hhalf : 2 * |R * 2 ^ t - x| ≤ 2 ^ t) : Nearest (R * 2 ^ t) x := by
  intro v hv
  have hunits : ∀ k : Int, |(R : ℚ) * 2 ^ t - x| ≤ |k * 2 ^ t - x| := fun k =>
    abs_sub_le_of_half_unit (R := R) (by push_cast; rfl) hhalf
  by_cases hlarge : 2 ^ 52 * 2 ^ t ≤ |v|
  · obtain ⟨k, rfl⟩ := hv.exists_units hlarge
    exact hunits k
  · -- a smaller number is further away than `2 ^ 52` units are
    have hv' : v ≤ 2 ^ 52 * 2 ^ t := (le_abs_self v).trans (not_le.mp hlarge).le
    refine (hunits (2 ^ 52)).trans ?_
    push_cast
    rw [abs_of_nonpos (by linarith), abs_of_nonpos (by linarith)]
    linarith

/-! ### Rounding a mantissa -/

/-- The exact number `x` that a mantissa and the two bits behind it hold. -/
def Holds (em : ExtendedMantissa) (x : ℚ) : Prop :=
  match em.roundBit, em.stickyBit with
  | false, false => x = em.mantissa
  | false, true => em.mantissa < x ∧ x < em.mantissa + 1 / 2
  | true, false => x = em.mantissa + 1 / 2
  | true, true => em.mantissa + 1 / 2 < x ∧ x < em.mantissa + 1

/-- One shift halves the number, and the two bits still say on which side
it is. -/
theorem Holds.shiftRightOne {em : ExtendedMantissa} {x : ℚ} (h : Holds em x) :
    Holds em.shiftRightOne (x / 2) := by
  obtain ⟨m, round, sticky⟩ := em
  have hm : (m : ℚ) = 2 * (m / 2 : Nat) + (m % 2 : Nat) := by
    exact_mod_cast (Nat.div_add_mod m 2).symm
  -- The last bit of the mantissa becomes the round bit. A half is added exactly if it is set.
  rcases Nat.mod_two_eq_zero_or_one m with hlow | hlow
  · rw [hlow] at hm
    cases round <;> cases sticky <;> simp_all [Holds, ExtendedMantissa.shiftRightOne] <;>
      constructor <;> linarith
  · rw [hlow] at hm
    cases round <;> cases sticky <;> simp_all [Holds, ExtendedMantissa.shiftRightOne] <;>
      first | linarith | (constructor <;> linarith)

/-- Any number of shifts divides the number by a power of two. -/
theorem holds_shiftRight (m k : Nat) :
    Holds (ExtendedMantissa.mk m false false >>> k) (m / 2 ^ k) := by
  show Holds (k.repeat ExtendedMantissa.shiftRightOne ⟨m, false, false⟩) _
  induction k with
  | zero => simp [Nat.repeat, Holds]
  | succ k ih =>
    rw [Nat.repeat, pow_succ, ← div_div]
    exact ih.shiftRightOne

/-- The mantissa is the number without what is behind the point. -/
theorem Holds.mantissa_le {em : ExtendedMantissa} {x : ℚ} (h : Holds em x) :
    em.mantissa ≤ x ∧ x < em.mantissa + 1 := by
  obtain ⟨m, round, sticky⟩ := em
  cases round <;> cases sticky <;> simp_all [Holds] <;>
    first | linarith | (constructor <;> linarith)

/-- The rounded mantissa is the nearest whole number. -/
theorem Holds.two_mul_abs_le {em : ExtendedMantissa} {x : ℚ} (h : Holds em x) :
    2 * |em.roundedMantissa - x| ≤ 1 := by
  obtain ⟨m, round, sticky⟩ := em
  have hle : ∀ r : ℚ, x - 1 / 2 ≤ r → r ≤ x + 1 / 2 → 2 * |r - x| ≤ 1 := by
    intro r hlow hhigh
    have : |r - x| ≤ 1 / 2 := abs_le.mpr ⟨by linarith, by linarith⟩
    linarith
  cases round <;> cases sticky <;>
    simp only [Holds, ExtendedMantissa.roundedMantissa, ExtendedMantissa.accuracy,
      Accuracy.roundToNearestEven] at h ⊢
  · exact hle _ (by linarith) (by linarith)
  · exact hle _ (by linarith) (by linarith)
  · -- exactly in the middle: either neighbour will do
    have hlow : ((m % 2 : Nat) : ℚ) ≤ 1 := by
      exact_mod_cast Nat.lt_succ_iff.mp (Nat.mod_lt m (by decide))
    have hlow' : (0 : ℚ) ≤ (m % 2 : Nat) := Nat.cast_nonneg _
    exact hle _ (by push_cast at *; linarith) (by push_cast at *; linarith)
  · exact hle _ (by push_cast; linarith) (by push_cast; linarith)

/-- Rounding adds one at most. -/
theorem roundedMantissa_bounds (em : ExtendedMantissa) :
    em.mantissa ≤ em.roundedMantissa ∧ em.roundedMantissa ≤ em.mantissa + 1 := by
  obtain ⟨m, round, sticky⟩ := em
  cases round <;> cases sticky <;>
    simp only [ExtendedMantissa.roundedMantissa, ExtendedMantissa.accuracy,
      Accuracy.roundToNearestEven] <;> omega

/-- A mantissa is shifted until 53 of its bits are left. -/
theorem shiftToTargetExponent_eq {m : Nat} {e : Int} (he : -1074 ≤ m.log2 + e - 52) :
    shiftToTargetExponent .binary64 m e .exact =
      (ExtendedMantissa.mk m false false >>> (m.log2 - 52), e + (m.log2 - 52 : Nat)) := by
  have hshift : (max ((m.log2 : Int) + 1 + e - 53) (-1074) - e).toNat = m.log2 - 52 := by omega
  show (ExtendedMantissa.mk m false false >>> _, e + (_ : Nat)) = _
  rw [← hshift]
  rfl

/-- The number that is left of a mantissa of at least 53 bits. -/
theorem shifted_bounds {m : Nat} (hm : 52 ≤ m.log2) :
    (2 : ℚ) ^ 52 ≤ m / 2 ^ (m.log2 - 52) ∧ (m : ℚ) / 2 ^ (m.log2 - 52) < 2 ^ 53 := by
  have hne : m ≠ 0 := by
    rintro rfl
    simp at hm
  rw [le_div_iff₀ (by positivity), div_lt_iff₀ (by positivity), ← pow_add, ← pow_add,
    show 52 + (m.log2 - 52) = m.log2 by omega, show 53 + (m.log2 - 52) = m.log2 + 1 by omega]
  exact ⟨by exact_mod_cast Nat.log2_self_le hne, by exact_mod_cast Nat.lt_log2_self⟩

/-- After the shifts a mantissa has 53 bits. -/
theorem mantissa_shiftRight_bounds {m : Nat} (hm : 52 ≤ m.log2) :
    2 ^ 52 ≤ (ExtendedMantissa.mk m false false >>> (m.log2 - 52)).mantissa ∧
      (ExtendedMantissa.mk m false false >>> (m.log2 - 52)).mantissa < 2 ^ 53 := by
  obtain ⟨hlow, hhigh⟩ := shifted_bounds hm
  obtain ⟨hle, hlt⟩ := (holds_shiftRight m (m.log2 - 52)).mantissa_le
  refine ⟨Nat.lt_succ_iff.mp ?_, ?_⟩
  · exact_mod_cast hlow.trans_lt hlt
  · exact_mod_cast hle.trans_lt hhigh

/-- A rounded mantissa of 54 bits is the power `2 ^ 53`, and loses a bit
that is zero. -/
theorem shiftToTargetExponent_rounded {R : Nat} {t : Int} (hlow : 2 ^ 52 ≤ R)
    (hhigh : R ≤ 2 ^ 53) (ht : -1074 ≤ t) :
    ∃ em q, shiftToTargetExponent .binary64 R t .exact = (em, q) ∧ 2 ^ 52 ≤ em.mantissa ∧
      em.mantissa < 2 ^ 53 ∧ t ≤ q ∧ q ≤ t + 1 ∧ (em.mantissa : ℚ) * 2 ^ q = R * 2 ^ t := by
  by_cases hcarry : R = 2 ^ 53
  · subst hcarry
    refine ⟨⟨2 ^ 52, false, false⟩, t + 1, ?_, le_refl _, by decide, by omega, le_refl _, ?_⟩
    · rw [shiftToTargetExponent_eq (by rw [Nat.log2_two_pow]; omega), Nat.log2_two_pow]
      rfl
    · rw [zpow_add_one₀ (by norm_num)]
      push_cast
      ring
  · have hlt : R < 2 ^ 53 := lt_of_le_of_ne hhigh hcarry
    have hlog : R.log2 = 52 := (Nat.log2_eq_iff (by omega)).mpr ⟨hlow, hlt⟩
    refine ⟨⟨R, false, false⟩, t, ?_, hlow, hlt, le_refl _, by omega, rfl⟩
    rw [shiftToTargetExponent_eq (by rw [hlog]; omega), hlog]
    exact Prod.ext rfl (add_zero t)

/-- The fields `u` are a number of 53 bits with the sign `s`, at the
exponent `t` or the next one, and none is nearer to `x` without its sign. -/
def Rounds (s : Sign) (t : Int) (x : ℚ) (u : UnpackedFloat) : Prop :=
  ∃ m q, ∃ hm : 0 < m, u = .finite s m q hm ∧ 2 ^ 52 ≤ m ∧ m < 2 ^ 53 ∧ t ≤ q ∧ q ≤ t + 1 ∧
    Nearest (m * 2 ^ q) x

/-- A mantissa of 53 bits or more is rounded to the nearest. -/
theorem rounds_roundWithAccuracy (s : Sign) {m : Nat} {e : Int} (hm : 52 ≤ m.log2)
    (he : -1074 ≤ m.log2 + e - 52) :
    Rounds s (m.log2 + e - 52) (m * 2 ^ e) (roundWithAccuracy .binary64 s m e .exact) := by
  have hfirst := shiftToTargetExponent_eq he
  have hhalf := (holds_shiftRight m (m.log2 - 52)).two_mul_abs_le
  have hlarge := (shifted_bounds hm).1
  obtain ⟨hlow, hhigh⟩ := mantissa_shiftRight_bounds hm
  have ht : (m.log2 : Int) + e - 52 = e + (m.log2 - 52 : Nat) := by omega
  rw [ht] at he ⊢
  generalize ExtendedMantissa.mk m false false >>> (m.log2 - 52) = em at hfirst hhalf hlow hhigh
  generalize m.log2 - 52 = k at *
  obtain ⟨hround, hround'⟩ := roundedMantissa_bounds em
  obtain ⟨em', q, hsecond, hlow', hhigh', hq, hq', hvalue⟩ :=
    shiftToTargetExponent_rounded (hlow.trans hround) (by omega) he
  refine ⟨em'.mantissa, q, by omega, ?_, hlow', hhigh', hq, hq', ?_⟩
  · simp only [roundWithAccuracy, hfirst, hsecond]
    exact dif_neg (by omega)
  · -- in units of the last place, the exact number is `m / 2 ^ k`
    have hx : (m : ℚ) * 2 ^ e = m / 2 ^ k * 2 ^ (e + k) := by
      rw [add_comm, zpow_add₀ (by norm_num), zpow_natCast, ← mul_assoc,
        div_mul_cancel₀ _ (by positivity)]
    have hpos : (0 : ℚ) < 2 ^ (e + k) := by positivity
    rw [hvalue, hx]
    apply nearest_of_half_unit
    · exact mul_le_mul_of_nonneg_right hlarge hpos.le
    · rw [← sub_mul, abs_mul, abs_of_pos hpos, ← mul_assoc]
      exact mul_le_of_le_one_left hpos.le hhalf

/-! ### The fields of a double, packed and read back -/

/-- A normal number is packed field by field. -/
theorem pack_finite {s : Sign} {m : Nat} {q : Int} {hm : 0 < m} (hlow : 2 ^ 52 ≤ m)
    (hhigh : m < 2 ^ 53) {b : Nat} (hb : q = b - 1075) (hb' : b < 2047) :
    UnpackedFloat.pack .binary64 (.finite s m q hm) =
      packComponents .binary64 s (BitVec.ofNat 11 b) (BitVec.ofNat 52 m) := by
  have hlog : m.log2 + 1 = Format.binary64.mantissaBits :=
    congrArg (· + 1) ((Nat.log2_eq_iff (by omega)).mpr ⟨hlow, hhigh⟩)
  have hbiased : (q + (1023 : Nat) + (52 : Nat)).toNat = b := by omega
  have hfits : ¬2 ^ Format.binary64.exponentBits ≤ b + 1 := by
    norm_num
    omega
  have hbias : Format.binary64.exponentBias = 1023 := rfl
  simp only [UnpackedFloat.pack]
  rw [hbias, hbiased, if_neg hfits, if_pos hlog]

/-- Three fields that were packed are read back as a normal number. -/
theorem unpack_packComponents (s : Sign) {e : BitVec 11} (m : BitVec 52) (hlow : 0 < e.toNat)
    (hhigh : e.toNat < 2047) :
    ∃ hm, unpack .binary64 (packComponents .binary64 s e m) =
      .finite s (2 ^ 52 + m.toNat) (e.toNat - 1075) hm := by
  have hgreatest : e ≠ -1#11 := by
    rintro rfl
    exact absurd hhigh (by decide)
  have hleast : e ≠ 0#11 := by
    rintro rfl
    exact absurd hlow (by decide)
  have hexponent : unpackExponent (packComponents .binary64 s e m) = e :=
    unpackExponent_packComponents
  obtain ⟨hpos, hunpack⟩ := unpack_of_normal (b := packComponents .binary64 s e m)
    (by rw [hexponent]; exact hgreatest) (by rw [hexponent]; exact hleast)
  refine ⟨by omega, ?_⟩
  rw [hunpack]
  simp only [hexponent, unpackMantissa_packComponents, unpackSign_packComponents,
    Sign.ofBitVec_toBitVec]
  rfl

/-- A normal number that was packed is read back as it was. -/
theorem unpack_pack_finite {s : Sign} {m : Nat} {q : Int} {hm : 0 < m} (hlow : 2 ^ 52 ≤ m)
    (hhigh : m < 2 ^ 53) (hq : -1074 ≤ q) (hq' : q ≤ 971) :
    (Float.Model.pack (.finite s m q hm)).unpack = .finite s m q hm := by
  obtain ⟨b, hb⟩ : ∃ b : Nat, q + 1075 = b := Int.eq_ofNat_of_zero_le (by omega)
  have hexponent : (BitVec.ofNat 11 b).toNat = b := by
    rw [BitVec.toNat_ofNat, Nat.mod_eq_of_lt (by omega)]
  have hmantissa : 2 ^ 52 + (BitVec.ofNat 52 m).toNat = m := by
    rw [BitVec.toNat_ofNat]
    omega
  obtain ⟨hm', hunpack⟩ := unpack_packComponents s (BitVec.ofNat 52 m)
    (by omega : 0 < (BitVec.ofNat 11 b).toNat) (by omega)
  show unpack .binary64 (UnpackedFloat.pack .binary64 _) = _
  rw [pack_finite (b := b) hlow hhigh (by omega) (by omega), hunpack]
  simp only [hexponent, hmantissa]
  congr 1
  omega

/-- A rounded number in range that was packed is read back as it was. -/
theorem Rounds.unpack_pack {s : Sign} {t : Int} {x : ℚ} {u : UnpackedFloat} (h : Rounds s t x u)
    (ht : -1074 ≤ t) (ht' : t ≤ 970) : (Float.Model.pack u).unpack = u := by
  obtain ⟨m, q, hm, rfl, hlow, hhigh, hq, hq', -⟩ := h
  exact unpack_pack_finite hlow hhigh (by omega) (by omega)

/-! ### From an integer to its double -/

/-- Shifting a number to the left adds to its logarithm. -/
theorem log2_mul_two_pow {n : Nat} (hn : n ≠ 0) (k : Nat) : (n * 2 ^ k).log2 = n.log2 + k := by
  have hpos : 0 < 2 ^ k := Nat.two_pow_pos k
  rw [Nat.log2_eq_iff (Nat.mul_ne_zero hn hpos.ne'), pow_add,
    show n.log2 + k + 1 = n.log2 + 1 + k by omega, pow_add _ _ k]
  exact ⟨Nat.mul_le_mul_right _ (Nat.log2_self_le hn),
    Nat.mul_lt_mul_of_pos_right Nat.lt_log2_self hpos⟩

/-- The zeros that a mantissa is padded with do not change what it is
rounded to. -/
theorem rounds_padded (s : Sign) {m k : Nat} {e : Int} (hm : 0 < m) (hk : 52 ≤ m.log2 + k)
    (he : -1074 ≤ m.log2 + e - 52) :
    Rounds s (m.log2 + e - 52) (m * 2 ^ e)
      (roundWithAccuracy .binary64 s (m * 2 ^ k) (e - k) .exact) := by
  have hlog : (m * 2 ^ k).log2 = m.log2 + k := log2_mul_two_pow hm.ne' k
  have hround := rounds_roundWithAccuracy s (m := m * 2 ^ k) (e := e - k) (by omega) (by omega)
  have hx : ((m * 2 ^ k : Nat) : ℚ) * 2 ^ (e - k) = m * 2 ^ e := by
    rw [zpow_sub₀ (by norm_num), zpow_natCast]
    push_cast
    rw [mul_assoc, mul_div_cancel₀ _ (by positivity)]
  rwa [hx, hlog, show ((m.log2 + k : Nat) : Int) + (e - k) - 52 = m.log2 + e - 52 by omega]
    at hround

/-- A natural number of at most 53 bits is padded with zeros to 53. -/
theorem ofNat_eq_round {n : Nat} (hpos : 0 < n) (hn : n < 2 ^ 53) :
    UnpackedFloat.ofNat .binary64 n = roundWithAccuracy .binary64 .positive
      (n * 2 ^ (52 - n.log2)) (0 - (52 - n.log2 : Nat)) .exact := by
  have hlog : n.log2 < 53 := (Nat.log2_lt hpos.ne').mpr hn
  have hcompare : compare (n : Int) 0 = .gt := compare_gt_iff_gt.mpr (by omega)
  have hshift : (0 - max ((n.log2 : Int) + 1 + 0 - 53) (-1074)).toNat = 52 - n.log2 := by omega
  have hround : UnpackedFloat.round .binary64 .positive n 0 = roundWithAccuracy .binary64 .positive
      (n <<< (52 - n.log2)) (0 - (52 - n.log2 : Nat)) .exact := by
    rw [← hshift]
    rfl
  simp only [UnpackedFloat.ofNat, UnpackedFloat.ofInt, UnpackedFloat.normalize, hcompare,
    Int.toNat_natCast]
  rw [hround, Nat.shiftLeft_eq]

/-- Below `2 ^ 53` the number becomes a double first, and is then
multiplied by the power of ten, which is one. -/
theorem ofNat_of_lt {n : Nat} (hn : n < 2 ^ 53) :
    (Float.ofNat n).toModel = .pack (UnpackedFloat.mul .binary64
      (Float.Model.pack (UnpackedFloat.ofNat .binary64 n)).unpack
      (.finite .positive (2 ^ 52) (-52) (by decide))) := by
  have htoNat : n.toUInt64.toNat = n := UInt64.toNat_ofNat_of_lt' (hn.trans (by decide))
  have hfast : Float.ofNat n = n.toUInt64.toFloat * Float.ofBits 0x3FF0000000000000 :=
    dif_pos ⟨hn, by decide⟩
  have hone : (Float.ofBits 0x3FF0000000000000).toModel.unpack =
      .finite .positive (2 ^ 52) (-52) (by decide) := rfl
  have hfrom : n.toUInt64.toFloat.toModel = .pack (UnpackedFloat.ofNat .binary64 n.toUInt64.toNat) :=
    rfl
  rw [htoNat] at hfrom
  rw [← hone, ← hfrom, hfast]
  rfl

/-- A large natural number is converted by one rounding of its exact
value. -/
theorem ofNat_of_ge {n : Nat} (hn : 2 ^ 53 ≤ n) :
    (Float.ofNat n).toModel =
      .pack (roundWithAccuracy .binary64 .positive (n * 2 ^ 53) (0 - (53 : Nat)) .exact) := by
  have hslow : Float.ofNat n = .ofModel (Float.Model.ofScientific n 0) :=
    dif_neg (by omega)
  have hsmall : ¬(0 : Int) < -(2 ^ 11 + n.log2) := by omega
  rw [hslow]
  simp only [Float.Model.ofScientific, UnpackedFloat.ofScientific]
  rw [dif_neg (by omega), if_neg (by decide), if_neg hsmall, if_pos (le_refl _)]
  simp only [UnpackedFloat.mul, Nat.shiftLeft_eq, Int.toNat_zero, pow_zero, mul_one]
  rfl

/-- A natural number below `2 ^ 53` is converted without a loss. -/
theorem rounds_ofNat_of_lt {n : Nat} (hpos : 0 < n) (hn : n < 2 ^ 53) :
    Rounds .positive (n.log2 - 52) n (UnpackedFloat.ofNat .binary64 n) := by
  have hround := rounds_padded .positive (k := 52 - n.log2) (e := 0) hpos (by omega) (by omega)
  rwa [← ofNat_eq_round hpos hn, zpow_zero, mul_one, add_zero] at hround

/-- The double of a natural number that an integer can have. -/
theorem exists_rounds_ofNat {n : Nat} (hpos : 0 < n) (hn : n < 2 ^ 64) :
    ∃ t, -1074 ≤ t ∧ t ≤ 970 ∧ Rounds .positive t n (Float.ofNat n).toModel.unpack := by
  have hlog : n.log2 < 64 := (Nat.log2_lt hpos.ne').mpr hn
  by_cases hsmall : n < 2 ^ 53
  · have hfirst := rounds_ofNat_of_lt hpos hsmall
    rw [ofNat_of_lt hsmall, hfirst.unpack_pack (by omega) (by omega)]
    obtain ⟨m, q, hm, heq, hlow, hhigh, hq, hq', hnear⟩ := hfirst
    -- So far nothing is lost, and the factor one changes nothing.
    have hvalue : (m : ℚ) * 2 ^ q = n := by
      refine hnear.eq_of_representable (representable_intCast (z := n) ?_)
      rw [Nat.abs_cast]
      exact_mod_cast hsmall.le
    have hbits : m.log2 = 52 := (Nat.log2_eq_iff hm.ne').mpr ⟨hlow, hhigh⟩
    have hround := rounds_padded .positive (k := 52) (e := q) hm (by omega) (by omega)
    rw [hvalue, hbits] at hround
    rw [heq]
    refine ⟨_, ?_, ?_, (hround.unpack_pack ?_ ?_).symm ▸ hround⟩ <;> omega
  · have hround := rounds_padded .positive (k := 53) (e := 0) hpos (by omega) (by omega)
    rw [zpow_zero, mul_one] at hround
    rw [ofNat_of_ge (not_lt.mp hsmall)]
    refine ⟨_, ?_, ?_, (hround.unpack_pack ?_ ?_).symm ▸ hround⟩ <;> omega

/-- A double with finite fields stands for the number that the fields
give. -/
theorem number_of_unpack {x : Float} {s : Sign} {m : Nat} {q : Int} {hm : 0 < m}
    (h : x.toModel.unpack = .finite s m q hm) :
    numberOfFloat? x = some (.ofRat (rational (isNegative s) m q)) := by
  rw [numberOfFloat?, ofFloat_eq, h]
  rfl

/-- The double of an integer of at most 64 bits is nearest to it. -/
theorem number_ofInt {z : Int} (hz : z.natAbs < 2 ^ 64) :
    ∃ r, numberOfFloat? (Float.ofInt z) = some (.ofRat r) ∧ Nearest r z := by
  cases z with
  | ofNat n =>
    by_cases hn : n = 0
    · subst hn
      refine ⟨0, ?_, fun v _ => by simp⟩
      have hzero : (Float.ofInt 0).toModel.unpack = .zero .positive := rfl
      show numberOfFloat? (Float.ofInt 0) = _
      rw [numberOfFloat?, ofFloat_eq, hzero]
      simp [ofUnpacked, value?, rational]
    · obtain ⟨t, -, -, m, q, hm, hunpack, -, -, -, -, hnear⟩ :=
        exists_rounds_ofNat (Nat.pos_of_ne_zero hn) hz
      exact ⟨m * 2 ^ q, number_of_unpack hunpack, by exact_mod_cast hnear⟩
  | negSucc n =>
    obtain ⟨t, ht, ht', m, q, hm, hunpack, hlow, hhigh, hq, hq', hnear⟩ :=
      exists_rounds_ofNat n.succ_pos hz
    have hneg : (Float.ofInt (.negSucc n)).toModel.unpack = .finite .negative m q hm := by
      show (Float.Model.pack (Float.ofNat (n + 1)).toModel.unpack.neg).unpack = _
      rw [hunpack]
      exact unpack_pack_finite hlow hhigh (by omega) (by omega)
    refine ⟨-(m * 2 ^ q), number_of_unpack hneg, ?_⟩
    rw [Int.cast_negSucc]
    exact hnear.neg

end Double

open Double

/-- Every finite double is a number of 53 bits. -/
theorem representable_of_number {x : Float} {v : ℚ} (h : numberOfFloat? x = some (.ofRat v)) :
    Representable v := by
  have hcanonical := canonical_ofFloat x
  rw [numberOfFloat?] at h
  cases hx : ofFloat x with
  | nan => simp [hx, value?] at h
  | infinite negative =>
    rw [hx] at h
    cases negative with
    | true => exact absurd (Option.some_inj.mp h) (Extended.bot_lt_ofRat v).ne
    | false => exact absurd (Option.some_inj.mp h) (Extended.ofRat_lt_top v).ne'
  | finite negative m q =>
    rw [hx] at h hcanonical
    have hm : |(m : Int)| < 2 ^ 53 := by
      rw [Nat.abs_cast]
      exact_mod_cast hcanonical.1
    have hpositive : Representable (m * 2 ^ q) := ⟨m, q, hm, by push_cast; rfl⟩
    rw [← Extended.ofRat_inj.mp (Option.some_inj.mp h)]
    cases negative with
    | true => exact hpositive.neg
    | false => exact hpositive

/-- The double of an integer stands for a number, and no double stands for
one that is nearer to the integer. -/
theorem number_toFloat (n : Int64) :
    ∃ r, numberOfFloat? (Integer.toFloat n) = some (.ofRat r) ∧ Nearest r n.toInt := by
  have hn := Integer.inRange_toInt n
  simp only [Integer.InRange] at hn
  exact number_ofInt (by omega)

end ScalarScript
