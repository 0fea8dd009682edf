import ScalarScript.Expr.Eval
import ScalarScript.Proofs.Value.Order

/-!
# `ScalarScript.Proofs.Value.Coherence`: how far comparisons are coherent

A comparison of an integer and a double has the answer that their exact
values give, unless the double is the one that the integer is rounded to:
then the two are equal. Up to `2 ^ 53` nothing is rounded, so that this
makes no difference there.

Beyond `2 ^ 53` two integers may be equal to one double and not to each
other. `comparison_coherent` says that this is the only way in which `==`
and `<=` can fail to be transitive (`Bridge`), and
`comparison_not_transitive` that it does happen.
-/

set_option autoImplicit false

namespace ScalarScript

open Double

/-! ### The answers of the operators -/

namespace ComparisonOp

/-- The answer of an operator on two values in this order. -/
def answer : ComparisonOp → Ordering → Bool
  | equal, o => o == .eq
  | notEqual, o => o != .eq
  | op, o => op.holds o

/-- The comparison of two values evaluates to `true`. -/
def IsTrue (op : ComparisonOp) (a b : Value) : Prop :=
  ∀ p, op.apply a b p = .ok (.bool true)

variable {a b : Value} {o : Ordering}

/-- Where two values are ordered, each operator answers by the order. -/
theorem apply_of_ordered (h : a.compare b = .ordered o) (op : ComparisonOp) (p : Position) :
    op.apply a b p = .ok (.bool (op.answer o)) := by
  have hequal : a.equal b = (o == .eq) := by
    rw [Bool.eq_iff_iff, Value.equal_iff, h]
    simp
  cases op with
  | equal => rw [apply, hequal, answer]
  | notEqual =>
    rw [apply, hequal]
    rfl
  | _ => simp only [apply, answer, h]

/-- `==` is true exactly if the values are equal. -/
theorem isTrue_equal_iff : equal.IsTrue a b ↔ a.equal b = true := by
  simp [IsTrue, apply]

/-- Where there is no order, no operator but `==` and `!=` gives `true`. -/
theorem isTrue_iff {op : ComparisonOp} (hop : op ≠ equal) (hop' : op ≠ notEqual) :
    op.IsTrue a b ↔ ∃ o, a.compare b = .ordered o ∧ op.answer o = true := by
  cases h : a.compare b with
  | ordered o => simp [IsTrue, apply_of_ordered h]
  | unordered => cases op <;> simp_all [IsTrue, apply]
  | incomparable => cases op <;> simp_all [IsTrue, apply]

/-- `<` is true exactly if the first value is less. -/
theorem isTrue_less_iff : less.IsTrue a b ↔ a.compare b = .ordered .lt := by
  rw [isTrue_iff (by decide) (by decide)]
  constructor
  · rintro ⟨o, h, ho⟩
    cases o <;> simp_all [answer, holds]
  · intro h
    exact ⟨.lt, h, rfl⟩

/-- `<=` is true exactly if the values are ordered and the first is not
greater. -/
theorem isTrue_lessEqual_iff :
    lessEqual.IsTrue a b ↔ ∃ o, a.compare b = .ordered o ∧ o ≠ .gt := by
  rw [isTrue_iff (by decide) (by decide)]
  have hanswer : ∀ o, lessEqual.answer o = true ↔ o ≠ .gt := by decide
  simp only [hanswer]

end ComparisonOp

namespace Value

/-! ### An integer and a double -/

/-- An integer up to `2 ^ 53` is exact as a double. -/
theorem rounded_int_of_le {n : Int64} (h : |n.toInt| ≤ 2 ^ 53) :
    (int n).rounded? = some (.ofRat n.toInt) := by
  obtain ⟨q, hq, hnear⟩ := exists_rounded_int n
  rw [hq, hnear.eq_of_representable (representable_intCast h)]

/-- Rounding does not carry an integer across a double. -/
theorem cmp_rounded_of_ne {n : Int64} {x : Float} {r v : Extended}
    (hr : (int n).rounded? = some r) (hv : numberOfFloat? x = some v) (hne : r ≠ v) :
    cmp r v = cmp (.ofRat n.toInt) v := by
  obtain ⟨q, hq, hnear⟩ := exists_rounded_int n
  obtain rfl : Extended.ofRat q = r := Option.some_inj.mp (hq.symm.trans hr)
  rcases Extended.cases v with rfl | rfl | ⟨v, rfl⟩
  · rw [(cmp_eq_gt_iff _ _).mpr (Extended.bot_lt_ofRat _),
      (cmp_eq_gt_iff _ _).mpr (Extended.bot_lt_ofRat _)]
  · rw [(cmp_eq_lt_iff _ _).mpr (Extended.ofRat_lt_top _),
      (cmp_eq_lt_iff _ _).mpr (Extended.ofRat_lt_top _)]
  · have hrep := representable_of_number hv
    have hqv : q ≠ v := fun h => hne (congrArg _ h)
    rcases lt_trichotomy (n.toInt : ℚ) v with hlt | heq | hgt
    · rw [(cmp_eq_lt_iff _ _).mpr (Extended.ofRat_lt_ofRat.mpr hlt), cmp_eq_lt_iff,
        Extended.ofRat_lt_ofRat]
      exact lt_of_le_of_ne (hnear.ge hrep hlt.le) hqv
    · exact absurd (heq ▸ hnear.eq_of_representable (heq ▸ hrep)) hqv
    · rw [(cmp_eq_gt_iff _ _).mpr (Extended.ofRat_lt_ofRat.mpr hgt), cmp_eq_gt_iff,
        Extended.ofRat_lt_ofRat]
      exact lt_of_le_of_ne (hnear.le hrep hgt.le) hqv.symm

/-- What an integer and a double are compared as. -/
theorem compare_int_float {n : Int64} {x : Float} {r v : Extended}
    (hr : (int n).rounded? = some r) (hv : numberOfFloat? x = some v) :
    (int n).compare (float x) = .ordered (cmp r v) ∧
      (float x).compare (int n) = .ordered (cmp v r) := by
  have hx : (float x).rounded? = some v := hv
  rw [compare_of_rounded hr hx, compare_of_rounded hx hr]
  simp [tie]

/-- An integer and a double are compared by their exact values, if the
integer is exact as a double or rounds to another one. -/
theorem apply_int_float_of_exact {n : Int64} {x : Float} {v : Extended}
    (hv : numberOfFloat? x = some v)
    (h : |n.toInt| ≤ 2 ^ 53 ∨ (Integer.toFloat n == x) = false) (op : ComparisonOp)
    (p : Position) :
    op.apply (int n) (float x) p = .ok (.bool (op.answer (cmp (.ofRat n.toInt) v))) ∧
      op.apply (float x) (int n) p = .ok (.bool (op.answer (cmp v (.ofRat n.toInt)))) := by
  obtain ⟨q, hq, -⟩ := exists_rounded_int n
  have hcmp : cmp (.ofRat q) v = cmp (.ofRat n.toInt) v := by
    rcases h with hsmall | hother
    · rw [Option.some_inj.mp (hq.symm.trans (rounded_int_of_le hsmall))]
    · refine cmp_rounded_of_ne hq hv fun hqv => ?_
      simp [(beq_of_numbers hq hv).mpr hqv] at hother
  obtain ⟨hcompare, hcompare'⟩ := compare_int_float hq hv
  rw [← cmp_swap, hcmp, cmp_swap] at hcompare'
  rw [hcmp] at hcompare
  exact ⟨ComparisonOp.apply_of_ordered hcompare op p, ComparisonOp.apply_of_ordered hcompare' op p⟩

/-- An integer that rounds to the double is equal to it, in both
directions. -/
theorem apply_int_float_of_rounded {n : Int64} {x : Float} {v : Extended}
    (hv : numberOfFloat? x = some v) (h : (Integer.toFloat n == x) = true) (op : ComparisonOp)
    (p : Position) :
    op.apply (int n) (float x) p = .ok (.bool (op.answer .eq)) ∧
      op.apply (float x) (int n) p = .ok (.bool (op.answer .eq)) := by
  obtain ⟨q, hq, -⟩ := exists_rounded_int n
  obtain ⟨hcompare, hcompare'⟩ := compare_int_float hq hv
  rw [(beq_of_numbers hq hv).mp h, cmp_self_eq_eq] at hcompare hcompare'
  exact ⟨ComparisonOp.apply_of_ordered hcompare op p, ComparisonOp.apply_of_ordered hcompare' op p⟩

/-! ### Three values -/

/-- Two integers with a double between them, where one of the integers is
beyond the numbers that are doubles without exception. -/
inductive Bridge (P : Int → Int → Prop) : Value → Value → Value → Prop
  | intro {m n : Int64} (x : Float) (h : P m.toInt n.toInt)
      (hlarge : 2 ^ 53 < |m.toInt| ∨ 2 ^ 53 < |n.toInt|) : Bridge P (int m) (float x) (int n)

section

variable {a b c : Value}

/-- What becomes a number in a comparison is a number. -/
theorem isNumber_of_rounded {r : Extended} (h : a.rounded? = some r) : a.isNumber = true := by
  cases a with
  | int n => rfl
  | float x => rfl
  | _ => cases h

/-- `==` is true of the same value, and of numbers that are the same as
doubles and have no tie against it. -/
theorem isTrue_equal_cases : ComparisonOp.equal.IsTrue a b ↔
    a = b ∧ a.isNumber = false ∨
      ∃ r, a.rounded? = some r ∧ b.rounded? = some r ∧ a.tie b = .eq := by
  rw [ComparisonOp.isTrue_equal_iff, equal_iff, compare_eq_ordered_iff]
  constructor
  · rintro ((⟨s, t, rfl, rfl, h⟩ | ⟨r, s, hr, hs, h⟩) | ⟨h, rfl⟩)
    · rw [cmp_eq_eq_iff] at h
      exact .inl ⟨congrArg _ h, rfl⟩
    · rw [Ordering.then_eq_eq, cmp_eq_eq_iff] at h
      exact .inr ⟨r, hr, h.1 ▸ hs, h.2⟩
    · refine .inl ⟨rfl, ?_⟩
      rw [compare_eq_incomparable_iff] at h
      simp_all [Comparable]
  · rintro (⟨rfl, ha⟩ | ⟨r, hr, hs, h⟩)
    · cases a with
      | string s => exact .inl (.inl ⟨s, s, rfl, rfl, cmp_self_eq_eq s⟩)
      | bool _ => exact .inr ⟨rfl, rfl⟩
      | nothing => exact .inr ⟨rfl, rfl⟩
      | _ => cases ha
    · exact .inl (.inr ⟨r, r, hr, hs, by rw [cmp_self_eq_eq, Ordering.eq_then, h]⟩)

/-- `<=` is true of strings in order, and of numbers that are in order as
doubles and have no tie against it. -/
theorem isTrue_lessEqual_cases : ComparisonOp.lessEqual.IsTrue a b ↔
    (∃ s t, a = string s ∧ b = string t ∧ s ≤ t) ∨
      ∃ r s, a.rounded? = some r ∧ b.rounded? = some s ∧ r ≤ s ∧ (r = s → a.tie b ≠ .gt) := by
  rw [ComparisonOp.isTrue_lessEqual_iff]
  simp only [compare_eq_ordered_iff]
  constructor
  · rintro ⟨o, ⟨s, t, rfl, rfl, rfl⟩ | ⟨r, s, hr, hs, rfl⟩, ho⟩
    · rw [Ne, cmp_eq_gt_iff, not_lt] at ho
      exact .inl ⟨s, t, rfl, rfl, ho⟩
    · rw [Ne, Ordering.then_eq_gt, cmp_eq_gt_iff, cmp_eq_eq_iff, not_or, not_lt, not_and] at ho
      exact .inr ⟨r, s, hr, hs, ho⟩
  · rintro (⟨s, t, rfl, rfl, h⟩ | ⟨r, s, hr, hs, h⟩)
    · refine ⟨_, .inl ⟨s, t, rfl, rfl, rfl⟩, ?_⟩
      rwa [Ne, cmp_eq_gt_iff, not_lt]
    · refine ⟨_, .inr ⟨r, s, hr, hs, rfl⟩, ?_⟩
      rwa [Ne, Ordering.then_eq_gt, cmp_eq_gt_iff, cmp_eq_eq_iff, not_or, not_lt, not_and]

/-- A relation of ties is transitive if it is so among integers, unless
the middle one of the values does not see a tie that the others have. -/
theorem tie_closed {P : Ordering → Prop} (heq : P .eq)
    (htrans : ∀ k m n : Int, P (cmp k m) → P (cmp m n) → P (cmp k n)) (hb : b.isNumber = true)
    (hbridge : ¬∃ m x n, a = int m ∧ b = float x ∧ c = int n) (hab : P (a.tie b))
    (hbc : P (b.tie c)) : P (a.tie c) := by
  cases a with
  | int k =>
    cases c with
    | int n =>
      cases b with
      | int m => exact htrans _ _ _ hab hbc
      | float x => exact absurd ⟨k, x, n, rfl, rfl, rfl⟩ hbridge
      | _ => cases hb
    | _ => exact heq
  | _ => exact heq

/-- `==` is transitive, unless a double is between two integers. -/
theorem equal_trans (hbridge : ¬∃ m x n, a = int m ∧ b = float x ∧ c = int n)
    (hab : ComparisonOp.equal.IsTrue a b) (hbc : ComparisonOp.equal.IsTrue b c) :
    ComparisonOp.equal.IsTrue a c := by
  rcases isTrue_equal_cases.mp hab with ⟨rfl, -⟩ | ⟨r, ha, hb, htie⟩
  · exact hbc
  · rcases isTrue_equal_cases.mp hbc with ⟨rfl, -⟩ | ⟨s, hb', hc, htie'⟩
    · exact hab
    · obtain rfl : r = s := Option.some_inj.mp (hb.symm.trans hb')
      exact isTrue_equal_cases.mpr (.inr ⟨r, ha, hc, tie_closed (P := (· = .eq)) rfl
        (fun _ _ _ => cmp_trans) (isNumber_of_rounded hb) hbridge htie htie'⟩)

/-- `<=` is transitive, unless a double is between two integers. -/
theorem lessEqual_trans (hbridge : ¬∃ m x n, a = int m ∧ b = float x ∧ c = int n)
    (hab : ComparisonOp.lessEqual.IsTrue a b) (hbc : ComparisonOp.lessEqual.IsTrue b c) :
    ComparisonOp.lessEqual.IsTrue a c := by
  have hints : ∀ k m n : Int, cmp k m ≠ .gt → cmp m n ≠ .gt → cmp k n ≠ .gt := by
    intro k m n
    simp only [Ne, cmp_eq_gt_iff, not_lt]
    exact le_trans
  rw [isTrue_lessEqual_cases] at *
  rcases hab with ⟨s, t, rfl, rfl, hst⟩ | ⟨r, s, ha, hb, hrs, htie⟩
  · rcases hbc with ⟨t', u, ht, rfl, htu⟩ | ⟨r, s, hr, -, -, -⟩
    · cases ht
      exact .inl ⟨s, u, rfl, rfl, hst.trans htu⟩
    · cases hr
  · rcases hbc with ⟨t', u, rfl, -, -⟩ | ⟨s', t, hb', hc, hst, htie'⟩
    · cases hb
    · obtain rfl : s = s' := Option.some_inj.mp (hb.symm.trans hb')
      refine .inr ⟨r, t, ha, hc, hrs.trans hst, fun hrt => ?_⟩
      -- The three are the same double, so each tie counts.
      obtain rfl : r = s := le_antisymm hrs (hrt ▸ hst)
      exact tie_closed (P := (· ≠ .gt)) (by decide) hints (isNumber_of_rounded hb) hbridge
        (htie rfl) (htie' hrt)

/-- An operator that is transitive over all other values is transitive
over these three unless they are a bridge. -/
theorem isTrue_iff_not_bridge {op : ComparisonOp} {P : Int → Int → Prop}
    (hints : ∀ m n, op.IsTrue (int m) (int n) ↔ ¬P m.toInt n.toInt)
    (hsmall : ∀ m x n, |m.toInt| ≤ 2 ^ 53 → |n.toInt| ≤ 2 ^ 53 → op.IsTrue (int m) (float x) →
      op.IsTrue (float x) (int n) → ¬P m.toInt n.toInt)
    (htrans : (¬∃ m x n, a = int m ∧ b = float x ∧ c = int n) → op.IsTrue a c)
    (hab : op.IsTrue a b) (hbc : op.IsTrue b c) : op.IsTrue a c ↔ ¬Bridge P a b c := by
  by_cases hshape : ∃ m x n, a = int m ∧ b = float x ∧ c = int n
  · obtain ⟨m, x, n, rfl, rfl, rfl⟩ := hshape
    rw [hints]
    constructor
    · intro hP hbridge
      cases hbridge with
      | intro _ h _ => exact hP h
    · intro hbridge hP
      by_cases hlarge : 2 ^ 53 < |m.toInt| ∨ 2 ^ 53 < |n.toInt|
      · exact hbridge (.intro x hP hlarge)
      · rw [not_or, not_lt, not_lt] at hlarge
        exact hsmall m x n hlarge.1 hlarge.2 hab hbc hP
  · refine ⟨fun _ hbridge => hshape ?_, fun _ => htrans hshape⟩
    cases hbridge with
    | intro x _ _ => exact ⟨_, x, _, rfl, rfl, rfl⟩

/-- `==` fails to be transitive exactly over a double that two different
integers round to. -/
theorem equal_trans_iff (hab : ComparisonOp.equal.IsTrue a b)
    (hbc : ComparisonOp.equal.IsTrue b c) :
    ComparisonOp.equal.IsTrue a c ↔ ¬Bridge (· ≠ ·) a b c := by
  refine isTrue_iff_not_bridge ?_ ?_ (equal_trans · hab hbc) hab hbc
  · intro m n
    simp [ComparisonOp.isTrue_equal_iff, equal, Int64.toInt_inj]
  · intro m x n hm hn hmx hxn hne
    rcases isTrue_equal_cases.mp hmx with ⟨heq, -⟩ | ⟨r, hr, hv, -⟩
    · cases heq
    · rcases isTrue_equal_cases.mp hxn with ⟨heq, -⟩ | ⟨s, hv', hs, -⟩
      · cases heq
      · rw [rounded_int_of_le hm] at hr
        rw [rounded_int_of_le hn] at hs
        have heq : some (Extended.ofRat m.toInt) = some (.ofRat n.toInt) := by
          rw [hr, hs, ← hv, hv']
        exact hne (by exact_mod_cast Extended.ofRat_inj.mp (Option.some_inj.mp heq))

/-- `<=` fails to be transitive exactly over a double that two integers in
the wrong order round to. -/
theorem lessEqual_trans_iff (hab : ComparisonOp.lessEqual.IsTrue a b)
    (hbc : ComparisonOp.lessEqual.IsTrue b c) :
    ComparisonOp.lessEqual.IsTrue a c ↔ ¬Bridge (· > ·) a b c := by
  refine isTrue_iff_not_bridge ?_ ?_ (lessEqual_trans · hab hbc) hab hbc
  · intro m n
    simp [ComparisonOp.isTrue_lessEqual_iff, compare_int]
  · intro m x n hm hn hmx hxn hgt
    rcases isTrue_lessEqual_cases.mp hmx with ⟨_, _, heq, -, -⟩ | ⟨r, v, hr, hv, hrv, -⟩
    · cases heq
    · rcases isTrue_lessEqual_cases.mp hxn with ⟨_, _, heq, -, -⟩ | ⟨v', s, hv', hs, hvs, -⟩
      · cases heq
      · obtain rfl : v = v' := Option.some_inj.mp (hv.symm.trans hv')
        rw [rounded_int_of_le hm] at hr
        rw [rounded_int_of_le hn] at hs
        cases hr
        cases hs
        have hle := Extended.ofRat_le_ofRat.mp (hrv.trans hvs)
        exact absurd (by exact_mod_cast hle : m.toInt ≤ n.toInt) (not_le.mpr hgt)

/-- `<=` is `<` or `==`, where values can be compared. -/
theorem lessEqual_iff_less_or_equal (h : a.Comparable b) :
    ComparisonOp.lessEqual.IsTrue a b ↔
      ComparisonOp.less.IsTrue a b ∨ ComparisonOp.equal.IsTrue a b := by
  have hcompare : a.compare b ≠ .incomparable := fun hnot => compare_eq_incomparable_iff.mp hnot h
  rw [ComparisonOp.isTrue_lessEqual_iff, ComparisonOp.isTrue_less_iff,
    ComparisonOp.isTrue_equal_iff, equal_iff]
  constructor
  · rintro ⟨o, ho, hle⟩
    cases o with
    | lt => exact .inl ho
    | eq => exact .inr (.inl ho)
    | gt => exact absurd rfl hle
  · rintro (ho | ho | ⟨ho, -⟩)
    · exact ⟨_, ho, by decide⟩
    · exact ⟨_, ho, by decide⟩
    · exact absurd ho hcompare

end

/-- `==` and `<=` are transitive except over a double that two different
integers are rounded to, of which one is beyond `2 ^ 53`. For two numbers
or two strings, `<=` is `<` or `==`. An integer and a double are compared
by their exact values, except that an integer beyond `2 ^ 53` is equal to
the double that it is rounded to. -/
theorem comparison_coherent (a b c : Value) :
    (ComparisonOp.equal.IsTrue a b → ComparisonOp.equal.IsTrue b c →
      (ComparisonOp.equal.IsTrue a c ↔ ¬Bridge (· ≠ ·) a b c)) ∧
    (ComparisonOp.lessEqual.IsTrue a b → ComparisonOp.lessEqual.IsTrue b c →
      (ComparisonOp.lessEqual.IsTrue a c ↔ ¬Bridge (· > ·) a b c)) ∧
    (a.Comparable b → (ComparisonOp.lessEqual.IsTrue a b ↔
      ComparisonOp.less.IsTrue a b ∨ ComparisonOp.equal.IsTrue a b)) ∧
    ∀ n x v, numberOfFloat? x = some v → ∀ op p,
      ((|n.toInt| ≤ 2 ^ 53 ∨ (Integer.toFloat n == x) = false) →
        ComparisonOp.apply op (int n) (float x) p =
            .ok (bool (op.answer (cmp (.ofRat n.toInt) v))) ∧
          ComparisonOp.apply op (float x) (int n) p =
            .ok (bool (op.answer (cmp v (.ofRat n.toInt))))) ∧
      ((Integer.toFloat n == x) = true →
        ComparisonOp.apply op (int n) (float x) p = .ok (bool (op.answer .eq)) ∧
          ComparisonOp.apply op (float x) (int n) p = .ok (bool (op.answer .eq))) :=
  ⟨equal_trans_iff, lessEqual_trans_iff, lessEqual_iff_less_or_equal, fun _ _ _ hv op p =>
    ⟨fun h => apply_int_float_of_exact hv h op p, fun h => apply_int_float_of_rounded hv h op p⟩⟩

/-- The integer `2 ^ 53 + 1` between the doubles `2 ^ 53`, which it is
rounded to, and `2 ^ 53 + 2`. -/
theorem comparison_coherent_between_doubles :
    let low := float (Float.ofBits 0x4340000000000000)
    let high := float (Float.ofBits 0x4340000000000001)
    ComparisonOp.lessEqual.IsTrue low (int 9007199254740993) ∧
      ComparisonOp.lessEqual.IsTrue (int 9007199254740993) high ∧
      ComparisonOp.lessEqual.IsTrue low high := by
  intro low high
  have hlow : ComparisonOp.lessEqual.IsTrue low (int 9007199254740993) := fun _ => rfl
  have hhigh : ComparisonOp.lessEqual.IsTrue (int 9007199254740993) high := fun _ => rfl
  have hbridge : ¬Bridge (· > ·) low (int 9007199254740993) high := by
    show ¬Bridge _ (float _) _ _
    rintro ⟨⟩
  exact ⟨hlow, hhigh, ((comparison_coherent low _ high).2.1 hlow hhigh).mpr hbridge⟩

/-- The integers `2 ^ 53 + 1` and `2 ^ 53` are both equal to the double
`2 ^ 53`, and the greater one is at most the double, which is at most the
other. -/
theorem comparison_not_transitive :
    let double := Float.ofBits 0x4340000000000000
    (Double.ofFloat double).toInt? = some 9007199254740992 ∧
      ComparisonOp.equal.IsTrue (int 9007199254740993) (float double) ∧
      ComparisonOp.equal.IsTrue (float double) (int 9007199254740992) ∧
      ¬ComparisonOp.equal.IsTrue (int 9007199254740993) (int 9007199254740992) ∧
      ComparisonOp.lessEqual.IsTrue (int 9007199254740993) (float double) ∧
      ComparisonOp.lessEqual.IsTrue (float double) (int 9007199254740992) ∧
      ¬ComparisonOp.lessEqual.IsTrue (int 9007199254740993) (int 9007199254740992) := by
  intro double
  have hleft : (int 9007199254740993).compare (float double) = .ordered .eq := by decide
  have hright : (float double).compare (int 9007199254740992) = .ordered .eq := by decide
  have hints : (int 9007199254740993).compare (int 9007199254740992) = .ordered .gt := by decide
  refine ⟨by decide, ComparisonOp.apply_of_ordered hleft _, ComparisonOp.apply_of_ordered hright _, ?_,
    ComparisonOp.apply_of_ordered hleft _, ComparisonOp.apply_of_ordered hright _, ?_⟩
  · rw [ComparisonOp.isTrue_equal_iff]
    decide
  · rw [ComparisonOp.isTrue_lessEqual_iff, hints]
    rintro ⟨o, ho, hle⟩
    cases ho
    exact hle rfl

end Value

end ScalarScript
