import Mathlib.Algebra.Order.Field.Power
import Mathlib.Algebra.Order.Field.Rat
import Mathlib.Order.Compare
import Mathlib.Order.WithBot
import Mathlib.Tactic.Positivity
import Mathlib.Tactic.Ring
import ScalarScript.Value.Order

/-!
# `ScalarScript.Proofs.Double.Value`: doubles as exact numbers

A double that is a number stands for a rational `± m · 2 ^ q` or for an
infinity, so it has a place among the rationals with two ends
(`Extended`). `Double.value?` is that place, read off `m` and `q`.

Doubles are compared by their fields: first the sign, then the exponent,
then the mantissa. `compareFloats_of_numbers` says that this is the order
of the exact numbers. It rests on the normal form of the fields
(`Double.Canonical`): an exponent above the least one comes with a
leading bit, so a larger exponent outweighs every mantissa.
-/

set_option autoImplicit false

namespace ScalarScript

open Float.Model (UnpackedFloat Format)

/-- The rationals, with an infinity at each end. -/
abbrev Extended := WithBot (WithTop ℚ)

/-- A rational among them. -/
def Extended.ofRat (r : ℚ) : Extended := ((r : WithTop ℚ) : WithBot (WithTop ℚ))

namespace Extended

@[simp] theorem ofRat_lt_ofRat {r s : ℚ} : ofRat r < ofRat s ↔ r < s := by
  simp [ofRat]

/-- Rationals keep their order among the numbers with two ends. -/
theorem ofRat_le_ofRat {r s : ℚ} : ofRat r ≤ ofRat s ↔ r ≤ s := by
  simp [ofRat]

@[simp] theorem ofRat_inj {r s : ℚ} : ofRat r = ofRat s ↔ r = s := by
  simp [ofRat]

/-- Negative infinity is below every rational. -/
theorem bot_lt_ofRat (r : ℚ) : ⊥ < ofRat r :=
  WithBot.bot_lt_coe _

/-- Every rational is below infinity. -/
theorem ofRat_lt_top (r : ℚ) : ofRat r < ⊤ :=
  WithBot.coe_lt_coe.mpr (WithTop.coe_lt_top r)

/-- There are two ends, and every other number is a rational. -/
theorem cases (v : Extended) : v = ⊥ ∨ v = ⊤ ∨ ∃ r, v = ofRat r := by
  cases v using WithBot.recBotCoe with
  | bot => exact .inl rfl
  | coe v =>
    cases v using WithTop.recTopCoe with
    | top => exact .inr (.inl rfl)
    | coe r => exact .inr (.inr ⟨r, rfl⟩)

/-- Comparing two rationals is the same with the two ends and without. -/
theorem compares_ofRat {o : Ordering} {r s : ℚ} :
    o.Compares (ofRat r) (ofRat s) ↔ o.Compares r s := by
  cases o <;> simp

end Extended

namespace Double

/-- The number `± m · 2 ^ q`. -/
def rational (negative : Bool) (m : Nat) (q : Int) : ℚ :=
  if negative then -(m * 2 ^ q) else m * 2 ^ q

/-- The exact number that a double stands for, if it stands for one. -/
def value? : Double → Option Extended
  | nan => none
  | infinite negative => some (if negative then ⊥ else ⊤)
  | finite negative m q => some (.ofRat (rational negative m q))

/-- The integer that a double is equal to, if there is one. -/
def toInt? : Double → Option Int
  | .finite negative m q =>
    (naturalOf? m q).map fun n => if negative then -(n : Int) else n
  | _ => none

/-- The fields of a double are in normal form: 53 bits, the leading one
of which is missing only at the least exponent. -/
def Canonical : Double → Prop
  | finite _ m q => m < 2 ^ 53 ∧ -1074 ≤ q ∧ q ≤ 971 ∧ (2 ^ 52 ≤ m ∨ q = -1074)
  | _ => True

/-- Fields that are read from 64 bits are in normal form. -/
theorem canonical_ofFields (negative : Bool) {exponent fraction : Nat} (he : exponent < 2048)
    (hf : fraction < 2 ^ 52) : (ofFields negative exponent fraction).Canonical := by
  unfold ofFields
  split
  · split <;> exact trivial
  · split
    · exact ⟨by omega, le_refl _, by decide, .inr rfl⟩
    · simp only [Canonical, leadingBit]
      omega

/-- The fields of a float are in normal form. -/
theorem canonical_ofFloat (x : Float) : (ofFloat x).Canonical :=
  canonical_ofFields _ (Nat.mod_lt _ (by decide)) (Nat.mod_lt _ (by decide))

/-! ### The fields that are compared -/

/-- Whether a sign is the negative one. -/
def isNegative : UnpackedFloat.Sign → Bool
  | .negative => true
  | .positive => false

/-- What unpacked fields stand for. -/
def ofUnpacked : UnpackedFloat → Double
  | .notANumber => nan
  | .infinity s => infinite (isNegative s)
  | .zero s => finite (isNegative s) 0 (-1074)
  | .finite s m e _ => finite (isNegative s) m e

section

open Float.Model.UnpackedFloat

variable (b : BitVec Format.binary64.numBits)

/-- The fraction is the 52 bits at the end. -/
theorem toNat_unpackMantissa : (unpackMantissa b).toNat = b.toNat % leadingBit := by
  simp only [unpackMantissa, BitVec.toNat_cast, BitVec.extractLsb_toNat, Nat.shiftRight_zero]
  rfl

/-- The exponent is the eleven bits in front of the fraction. -/
theorem toNat_unpackExponent : (unpackExponent b).toNat = b.toNat / leadingBit % 2048 := by
  simp only [unpackExponent, BitVec.toNat_cast, BitVec.extractLsb_toNat,
    Nat.shiftRight_eq_div_pow]
  rfl

/-- The sign is the first bit. -/
theorem ofBitVec_unpackSign :
    isNegative (Sign.ofBitVec (unpackSign b)) = decide (b.toNat / leadingBit / 2048 = 1) := by
  have hb : b.toNat < 2 ^ 64 := b.isLt
  have hs : (unpackSign b).toNat = b.toNat / leadingBit / 2048 := by
    delta unpackSign
    simp only [BitVec.toNat_cast, BitVec.extractLsb_toNat, Nat.shiftRight_eq_div_pow, leadingBit]
    norm_num
    omega
  rw [← hs]
  generalize unpackSign b = v
  revert v
  decide

variable {b}

/-- With the greatest exponent there is an infinity, or no number. -/
theorem unpack_of_greatest (he : unpackExponent b = -1#11) :
    unpack Format.binary64 b = if unpackMantissa b = 0#52 then
      .infinity (Sign.ofBitVec (unpackSign b)) else .notANumber :=
  if_pos he

/-- With the least exponent and no fraction there is a zero. -/
theorem unpack_of_zero (he : unpackExponent b = 0#11) (hm : unpackMantissa b = 0#52) :
    unpack Format.binary64 b = .zero (Sign.ofBitVec (unpackSign b)) := by
  have hgreatest : unpackExponent b ≠ -1#11 := by
    rw [he]
    decide
  exact (if_neg hgreatest).trans ((if_pos he).trans (dif_pos hm))

/-- With the least exponent and a fraction there is the fraction alone. -/
theorem unpack_of_subnormal (he : unpackExponent b = 0#11) (hm : unpackMantissa b ≠ 0#52) :
    ∃ hpos, unpack Format.binary64 b =
      .finite (Sign.ofBitVec (unpackSign b)) (unpackMantissa b).toNat (-1074) hpos := by
  have hgreatest : unpackExponent b ≠ -1#11 := by
    rw [he]
    decide
  obtain ⟨hpos, hunpack⟩ : ∃ hpos, unpack Format.binary64 b =
      .finite (Sign.ofBitVec (unpackSign b)) (unpackMantissa b).toNat
        ((unpackExponent b).toNat - 1075 + 1) hpos :=
    ⟨_, (if_neg hgreatest).trans ((if_pos he).trans (dif_neg hm))⟩
  refine ⟨hpos, ?_⟩
  rw [hunpack, he]
  rfl

/-- With any other exponent the implicit bit stands in front of the
fraction. -/
theorem unpack_of_normal (hgreatest : unpackExponent b ≠ -1#11) (hleast : unpackExponent b ≠ 0#11) :
    ∃ hpos, unpack Format.binary64 b = .finite (Sign.ofBitVec (unpackSign b))
      (leadingBit + (unpackMantissa b).toNat) ((unpackExponent b).toNat - 1075) hpos := by
  have hlead : (1#1 ++ unpackMantissa b).toNat = leadingBit + (unpackMantissa b).toNat := by
    rw [BitVec.toNat_append, ← Nat.shiftLeft_add_eq_or_of_lt (unpackMantissa b).isLt]
    rfl
  rw [← hlead]
  exact ⟨_, (if_neg hgreatest).trans (if_neg hleast)⟩

variable (b)

/-- Both readings of 64 bits cut them at the same places. -/
theorem ofBits_eq : ofBits b.toNat = ofUnpacked (unpack Format.binary64 b) := by
  rw [ofBits, ofFields, ← toNat_unpackExponent b, ← toNat_unpackMantissa b,
    ← ofBitVec_unpackSign b]
  have hall : unpackExponent b = -1#11 ↔ (unpackExponent b).toNat = 2047 := by
    rw [← BitVec.toNat_inj]
    rfl
  have hnone : unpackExponent b = 0#11 ↔ (unpackExponent b).toNat = 0 := by
    rw [← BitVec.toNat_inj]
    rfl
  have hzero : unpackMantissa b = 0#52 ↔ (unpackMantissa b).toNat = 0 := by
    rw [← BitVec.toNat_inj]
    rfl
  by_cases hgreatest : unpackExponent b = -1#11
  · rw [unpack_of_greatest hgreatest, if_pos (hall.mp hgreatest)]
    by_cases hfraction : unpackMantissa b = 0#52
    · rw [if_pos hfraction, if_pos (hzero.mp hfraction)]
      rfl
    · rw [if_neg hfraction, if_neg (mt hzero.mpr hfraction)]
      rfl
  · rw [if_neg (mt hall.mpr hgreatest)]
    by_cases hleast : unpackExponent b = 0#11
    · rw [if_pos (hnone.mp hleast)]
      by_cases hfraction : unpackMantissa b = 0#52
      · rw [unpack_of_zero hleast hfraction, hzero.mp hfraction]
        rfl
      · obtain ⟨_, hunpack⟩ := unpack_of_subnormal hleast hfraction
        rw [hunpack]
        rfl
    · obtain ⟨_, hunpack⟩ := unpack_of_normal hgreatest hleast
      rw [hunpack, if_neg (mt hnone.mpr hleast)]
      rfl

end

/-- The fields of a float are those that comparisons look at. -/
theorem ofFloat_eq (x : Float) : ofFloat x = ofUnpacked x.toModel.unpack :=
  ofBits_eq x.toModel.toBits.toBitVec

/-! ### The order of the fields -/

/-- A larger exponent outweighs every mantissa, as long as the leading bit
is there. -/
theorem scaled_lt_of_exponent_lt {m₁ m₂ : Nat} {q₁ q₂ : Int} (h₁ : m₁ < 2 ^ 53)
    (h₂ : 2 ^ 52 ≤ m₂) (hq : q₁ < q₂) : (m₁ : ℚ) * 2 ^ q₁ < m₂ * 2 ^ q₂ :=
  calc (m₁ : ℚ) * 2 ^ q₁ < 2 ^ 53 * 2 ^ q₁ :=
        mul_lt_mul_of_pos_right (by exact_mod_cast h₁) (by positivity)
    _ = 2 ^ 52 * 2 ^ (q₁ + 1) := by
        rw [zpow_add_one₀ (by norm_num)]
        ring
    _ ≤ m₂ * 2 ^ q₂ :=
        mul_le_mul (by exact_mod_cast h₂) (zpow_le_zpow_right₀ (by norm_num) hq) (by positivity)
          (by positivity)

/-- Two positive doubles are in the order of their exponents, and at one
exponent in that of their mantissas. -/
theorem compares_scaled {m₁ m₂ : Nat} {q₁ q₂ : Int} (h₁ : (finite false m₁ q₁).Canonical)
    (h₂ : (finite false m₂ q₂).Canonical) :
    ((compare q₁ q₂).then (compare m₁ m₂)).Compares ((m₁ : ℚ) * 2 ^ q₁) (m₂ * 2 ^ q₂) := by
  rcases lt_trichotomy q₁ q₂ with hq | rfl | hq
  · rw [compare_lt_iff_lt.mpr hq, Ordering.lt_then]
    exact scaled_lt_of_exponent_lt h₁.1 (h₂.2.2.2.resolve_right (by have := h₁.2.1; omega)) hq
  · have hpos : (0 : ℚ) < 2 ^ q₁ := by positivity
    rcases lt_trichotomy m₁ m₂ with hm | rfl | hm
    · simpa [compare_lt_iff_lt.mpr hm, hpos] using hm
    · simp
    · simpa [compare_gt_iff_gt.mpr hm, hpos] using hm
  · rw [compare_gt_iff_gt.mpr hq, Ordering.gt_then]
    exact scaled_lt_of_exponent_lt h₂.1 (h₁.2.2.2.resolve_right (by have := h₂.2.1; omega)) hq

/-- Changing both signs turns the order around. -/
theorem compares_neg_neg {o : Ordering} {r s : ℚ} (h : o.Compares r s) :
    o.Compares (-s) (-r) := by
  cases o with
  | lt => exact neg_lt_neg h
  | eq => exact congrArg (- ·) h.symm
  | gt => exact neg_lt_neg h

/-- The five kinds of fields that stand for a number, in ascending order,
and the number they stand for. -/
inductive Denotes : UnpackedFloat → Extended → Prop
  | bot : Denotes (.infinity .negative) ⊥
  | negative {m : Nat} {q : Int} (hm : 0 < m) (h : (finite true m q).Canonical) :
      Denotes (.finite .negative m q hm) (.ofRat (-(m * 2 ^ q)))
  | zero (s : UnpackedFloat.Sign) : Denotes (.zero s) (.ofRat 0)
  | positive {m : Nat} {q : Int} (hm : 0 < m) (h : (finite false m q).Canonical) :
      Denotes (.finite .positive m q hm) (.ofRat (m * 2 ^ q))
  | top : Denotes (.infinity .positive) ⊤

/-- Fields that stand for a number are of one of the five kinds. -/
theorem denotes_of_value {u : UnpackedFloat} {r : Extended} (hu : (ofUnpacked u).Canonical)
    (hr : (ofUnpacked u).value? = some r) : Denotes u r := by
  cases u with
  | notANumber => cases hr
  | infinity s =>
    cases s <;> cases hr
    · exact .bot
    · exact .top
  | zero s =>
    have hvalue : Extended.ofRat (rational (isNegative s) 0 (-1074)) = r := Option.some.inj hr
    have hzero : rational (isNegative s) 0 (-1074) = 0 := by simp [rational]
    rw [← hvalue, hzero]
    exact .zero s
  | finite s m q hm =>
    cases s <;> cases hr
    · exact .negative hm hu
    · exact .positive hm hu

/-- The fields of two numbers are in the order of the numbers. -/
theorem Denotes.compares {u v : UnpackedFloat} {r s : Extended} (hr : Denotes u r)
    (hs : Denotes v s) : ∃ o, u.compare v = some o ∧ o.Compares r s := by
  have hpos : ∀ {m : Nat} (q : Int), 0 < m → (0 : ℚ) < m * 2 ^ q := by
    intro m q hm
    positivity
  cases hr with
  | bot =>
    cases hs with
    | bot => exact ⟨.eq, rfl, rfl⟩
    | top => exact ⟨.lt, rfl, by simp⟩
    | _ => exact ⟨.lt, rfl, Extended.bot_lt_ofRat _⟩
  | negative hm₁ h₁ =>
    cases hs with
    | bot => exact ⟨.gt, rfl, Extended.bot_lt_ofRat _⟩
    | negative hm₂ h₂ =>
      -- The order of the mantissas is that of the absolute values.
      refine ⟨_, rfl, ?_⟩
      rw [Ordering.compares_swap, Extended.compares_ofRat]
      exact compares_neg_neg (compares_scaled h₁ h₂)
    | zero => exact ⟨.lt, rfl, by simpa using hpos _ hm₁⟩
    | positive hm₂ =>
      exact ⟨.lt, rfl, by simpa using (neg_lt_zero.mpr (hpos _ hm₁)).trans (hpos _ hm₂)⟩
    | top => exact ⟨.lt, rfl, Extended.ofRat_lt_top _⟩
  | zero =>
    cases hs with
    | bot => exact ⟨.gt, rfl, Extended.bot_lt_ofRat _⟩
    | negative hm => exact ⟨.gt, rfl, by simpa using hpos _ hm⟩
    | zero => exact ⟨.eq, rfl, rfl⟩
    | positive hm => exact ⟨.lt, rfl, by simpa using hpos _ hm⟩
    | top => exact ⟨.lt, rfl, Extended.ofRat_lt_top _⟩
  | positive hm₁ h₁ =>
    cases hs with
    | bot => exact ⟨.gt, rfl, Extended.bot_lt_ofRat _⟩
    | negative hm₂ =>
      exact ⟨.gt, rfl, by simpa using (neg_lt_zero.mpr (hpos _ hm₂)).trans (hpos _ hm₁)⟩
    | zero => exact ⟨.gt, rfl, by simpa using hpos _ hm₁⟩
    | positive hm₂ h₂ =>
      exact ⟨_, rfl, Extended.compares_ofRat.mpr (compares_scaled h₁ h₂)⟩
    | top => exact ⟨.lt, rfl, Extended.ofRat_lt_top _⟩
  | top =>
    cases hs with
    | bot => exact ⟨.gt, rfl, by simp⟩
    | top => exact ⟨.eq, rfl, rfl⟩
    | _ => exact ⟨.gt, rfl, Extended.ofRat_lt_top _⟩

end Double

/-- One float is less than another exactly if the fields compare so. -/
theorem lt_iff_compare (x y : Float) :
    x < y ↔ x.toModel.unpack.compare y.toModel.unpack = some .lt := by
  show decide ((x.toModel.unpack.compare y.toModel.unpack == some .lt) = true) = true ↔ _
  rw [decide_eq_true_iff, beq_iff_eq]

/-- One float is at most another exactly if the fields compare so. -/
theorem le_iff_compare (x y : Float) :
    x ≤ y ↔ (x.toModel.unpack.compare y.toModel.unpack).any Ordering.isLE = true := by
  show decide (x.toModel.unpack.le y.toModel.unpack = true) = true ↔ _
  rw [decide_eq_true_iff]
  rfl

/-- Two floats are equal exactly if the fields compare so. -/
theorem beq_iff_compare (x y : Float) :
    (x == y) = true ↔ x.toModel.unpack.compare y.toModel.unpack = some .eq := by
  show (x.toModel.unpack.compare y.toModel.unpack == some .eq) = true ↔ _
  rw [beq_iff_eq]

/-- The number that a double stands for, if it stands for one. -/
def numberOfFloat? (x : Float) : Option Extended :=
  (Double.ofFloat x).value?

section

variable {x y : Float} {r s : Extended}

/-- The fields of two floats compare as the numbers do. -/
theorem compare_unpack_of_numbers (hx : numberOfFloat? x = some r)
    (hy : numberOfFloat? y = some s) :
    x.toModel.unpack.compare y.toModel.unpack = some (cmp r s) := by
  have hcx := Double.canonical_ofFloat x
  have hcy := Double.canonical_ofFloat y
  rw [numberOfFloat?, Double.ofFloat_eq] at hx hy
  rw [Double.ofFloat_eq] at hcx hcy
  obtain ⟨o, heq, ho⟩ := (Double.denotes_of_value hcx hx).compares (Double.denotes_of_value hcy hy)
  rw [heq, ho.inj (cmp_compares r s)]

/-- Doubles that stand for numbers are in the order of the numbers. -/
theorem compareFloats_of_numbers (hx : numberOfFloat? x = some r)
    (hy : numberOfFloat? y = some s) : compareFloats x y = .ordered (cmp r s) := by
  have hlt := lt_iff_compare x y
  have heq := beq_iff_compare x y
  have hgt := lt_iff_compare y x
  rw [compare_unpack_of_numbers hx hy] at hlt heq
  rw [compare_unpack_of_numbers hy hx, ← cmp_swap] at hgt
  unfold compareFloats
  generalize cmp r s = o at hlt heq hgt ⊢
  cases o <;> simp_all

/-- One float is less than another exactly if its number is less. -/
theorem lt_of_numbers (hx : numberOfFloat? x = some r) (hy : numberOfFloat? y = some s) :
    x < y ↔ r < s := by
  rw [lt_iff_compare, compare_unpack_of_numbers hx hy, Option.some_inj, cmp_eq_lt_iff]

/-- One float is at most another exactly if its number is at most the
other. -/
theorem le_of_numbers (hx : numberOfFloat? x = some r) (hy : numberOfFloat? y = some s) :
    x ≤ y ↔ r ≤ s := by
  rw [le_iff_compare, compare_unpack_of_numbers hx hy, Option.any_some]
  rcases lt_trichotomy r s with h | rfl | h
  · rw [(cmp_eq_lt_iff r s).mpr h]
    exact iff_of_true rfl h.le
  · rw [cmp_self_eq_eq]
    exact iff_of_true rfl le_rfl
  · rw [(cmp_eq_gt_iff r s).mpr h]
    exact iff_of_false (by decide) h.not_ge

/-- Two floats are equal exactly if their numbers are. -/
theorem beq_of_numbers (hx : numberOfFloat? x = some r) (hy : numberOfFloat? y = some s) :
    (x == y) = true ↔ r = s := by
  rw [beq_iff_compare, compare_unpack_of_numbers hx hy, Option.some_inj, cmp_eq_eq_iff]

/-- What is not a number has no place in the order, and equals nothing. -/
theorem compare_unpack_of_nan (h : numberOfFloat? x = none ∨ numberOfFloat? y = none) :
    x.toModel.unpack.compare y.toModel.unpack = none := by
  have hnan : ∀ {z : Float}, numberOfFloat? z = none → z.toModel.unpack = .notANumber := by
    intro z hz
    rw [numberOfFloat?, Double.ofFloat_eq] at hz
    cases hu : z.toModel.unpack with
    | notANumber => rfl
    | _ => rw [hu] at hz; cases hz
  rcases h with h | h
  · rw [hnan h]
    rfl
  · rw [hnan h]
    cases x.toModel.unpack <;> rfl

/-- What is not a number is not ordered against anything. -/
theorem compareFloats_of_nan (h : numberOfFloat? x = none ∨ numberOfFloat? y = none) :
    compareFloats x y = .unordered := by
  simp [compareFloats, lt_iff_compare, beq_iff_compare, compare_unpack_of_nan h,
    compare_unpack_of_nan h.symm]

end

end ScalarScript
