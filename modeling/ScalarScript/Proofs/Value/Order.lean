import ScalarScript.Proofs.Double.Nearest

/-!
# `ScalarScript.Proofs.Value.Order`: the order of mixed numbers

Two integers are compared exactly. An integer and a double are compared
as two doubles, and the integer may have been rounded on the way. So two
numbers are in the order of the doubles nearest to them, and only a tie
between two integers is decided by the integers themselves
(`compare_of_rounded`).

Strictly less and strictly greater are transitive in this order
(`compare_trans`), equal is not.
-/

set_option autoImplicit false

namespace ScalarScript

open Double

/-- In a linear order, what holds between two and two holds between the
outer ones. -/
theorem cmp_trans {α : Type} [LinearOrder α] {a b c : α} {o : Ordering} (hab : cmp a b = o)
    (hbc : cmp b c = o) : cmp a c = o := by
  cases o with
  | lt =>
    rw [cmp_eq_lt_iff] at *
    exact hab.trans hbc
  | eq =>
    rw [cmp_eq_eq_iff] at *
    exact hab.trans hbc
  | gt =>
    rw [cmp_eq_gt_iff] at *
    exact hbc.trans hab

/-- A second comparison decides only where the first is a tie. -/
theorem then_eq_iff_of_ne_eq {o o₁ o₂ : Ordering} (ho : o ≠ .eq) :
    o₁.then o₂ = o ↔ o₁ = o ∨ o₁ = .eq ∧ o₂ = o := by
  cases o₁ <;> cases o <;> simp_all

/-- Two floats are in order as equals exactly if they are equal. -/
theorem compareFloats_eq_iff (x y : Float) :
    compareFloats x y = .ordered .eq ↔ (x == y) = true := by
  have hlt := lt_iff_compare x y
  have heq := beq_iff_compare x y
  unfold compareFloats
  split
  · simp_all
  · split
    · simp_all
    · split <;> simp_all

namespace Value

/-- The number that a value becomes when it is compared with a double. -/
def rounded? (v : Value) : Option Extended :=
  v.toFloat?.bind numberOfFloat?

/-- What decides between two numbers that are the same as doubles. -/
def tie : Value → Value → Ordering
  | int m, int n => cmp m.toInt n.toInt
  | _, _ => .eq

/-- Both values are numbers, or both are strings. -/
def Comparable (v w : Value) : Prop :=
  v.isNumber = true ∧ w.isNumber = true ∨ v.isString = true ∧ w.isString = true

section

variable {u v w : Value} {r s : Extended}

/-! ### Two numbers -/

/-- An integer becomes the number of its nearest double. -/
theorem exists_rounded_int (n : Int64) :
    ∃ q, (int n).rounded? = some (.ofRat q) ∧ Nearest q n.toInt :=
  number_toFloat n

/-- Rounding keeps the order of integers. -/
theorem rounded_mono {m n : Int64} (hr : (int m).rounded? = some r)
    (hs : (int n).rounded? = some s) (h : m.toInt ≤ n.toInt) : r ≤ s := by
  obtain ⟨r', hr', hnear⟩ := number_toFloat m
  obtain ⟨s', hs', hnear'⟩ := number_toFloat n
  obtain rfl : Extended.ofRat r' = r := Option.some_inj.mp (hr'.symm.trans hr)
  obtain rfl : Extended.ofRat s' = s := Option.some_inj.mp (hs'.symm.trans hs)
  rcases h.lt_or_eq with hlt | heq
  · rw [Extended.ofRat_le_ofRat]
    exact hnear.mono hnear' (representable_of_number hr') (representable_of_number hs')
      (by exact_mod_cast hlt)
  · rw [Int64.toInt_inj.mp heq, hs] at hr
    exact (Option.some_inj.mp hr).ge

/-- Integers are compared exactly. -/
theorem compare_int (m n : Int64) : (int m).compare (int n) = .ordered (cmp m.toInt n.toInt) := by
  rw [cmp_eq_compare]
  rfl

/-- Strings are compared by the order of strings. -/
theorem compare_string (s t : String) :
    (string s).compare (string t) = .ordered (cmp s t) := by
  rw [cmp_eq_compare, LinearOrder.compare_eq_compareOfLessAndEq]
  rfl

/-- The doubles of two integers may be equal where the integers are not,
but they are never in the opposite order. -/
theorem cmp_rounded_then {m n : Int64} (hr : (int m).rounded? = some r)
    (hs : (int n).rounded? = some s) :
    (cmp r s).then (cmp m.toInt n.toInt) = cmp m.toInt n.toInt := by
  rcases lt_trichotomy m.toInt n.toInt with hlt | heq | hgt
  · rw [(cmp_eq_lt_iff _ _).mpr hlt, Ordering.then_eq_lt, cmp_eq_lt_iff, cmp_eq_eq_iff]
    exact (rounded_mono hr hs hlt.le).lt_or_eq.imp_right fun h => ⟨h, rfl⟩
  · rw [Int64.toInt_inj.mp heq, hs] at hr
    rw [heq, Option.some_inj.mp hr, cmp_self_eq_eq, Ordering.eq_then]
  · rw [(cmp_eq_gt_iff _ _).mpr hgt, Ordering.then_eq_gt, cmp_eq_gt_iff, cmp_eq_eq_iff]
    exact (rounded_mono hs hr hgt.le).lt_or_eq.imp_right fun h => ⟨h.symm, rfl⟩

/-- Two numbers are in the order of the doubles nearest to them, and a
tie between two integers is decided by the integers. -/
theorem compare_of_rounded (hv : v.rounded? = some r) (hw : w.rounded? = some s) :
    v.compare w = .ordered ((cmp r s).then (v.tie w)) := by
  have hmixed : ∀ {x y : Float}, numberOfFloat? x = some r → numberOfFloat? y = some s →
      compareFloats x y = .ordered ((cmp r s).then .eq) := by
    intro x y hx hy
    rw [compareFloats_of_numbers hx hy, Ordering.then_eq]
  cases v with
  | int m =>
    cases w with
    | int n => rw [compare_int, tie, cmp_rounded_then hv hw]
    | float y => exact hmixed hv hw
    | _ => cases hw
  | float x =>
    cases w with
    | int n => exact hmixed hv hw
    | float y => exact hmixed hv hw
    | _ => cases hw
  | _ => cases hv

/-- What is not a number is not ordered against a number. -/
theorem compare_of_nan (hv : v.isNumber = true) (hw : w.isNumber = true)
    (h : v.rounded? = none ∨ w.rounded? = none) : v.compare w = .unordered := by
  cases v with
  | int m =>
    cases w with
    | int n =>
      obtain ⟨_, hm, -⟩ := exists_rounded_int m
      obtain ⟨_, hn, -⟩ := exists_rounded_int n
      simp [hm, hn] at h
    | float y => exact compareFloats_of_nan h
    | _ => cases hw
  | float x =>
    cases w with
    | int n => exact compareFloats_of_nan h
    | float y => exact compareFloats_of_nan h
    | _ => cases hw
  | _ => cases hv

/-! ### Any two values -/

/-- Floats can always be compared, if only to find that they are not
ordered. -/
theorem compareFloats_ne_incomparable (x y : Float) : compareFloats x y ≠ .incomparable := by
  unfold compareFloats
  split_ifs <;> simp

/-- Two values have an order, or one of them is not a number, exactly if
they are comparable. -/
theorem compare_eq_incomparable_iff : v.compare w = .incomparable ↔ ¬v.Comparable w := by
  cases v <;> cases w <;>
    simp [compare, toFloat?, Comparable, isNumber, isString, compareFloats_ne_incomparable]

/-- Two values are ordered exactly if they are strings or numbers, the
numbers by their doubles and then by the tie. -/
theorem compare_eq_ordered_iff {o : Ordering} :
    v.compare w = .ordered o ↔
      (∃ s t, v = string s ∧ w = string t ∧ cmp s t = o) ∨
      ∃ r s, v.rounded? = some r ∧ w.rounded? = some s ∧ (cmp r s).then (v.tie w) = o := by
  constructor
  · intro h
    have hcomparable : v.Comparable w := by
      by_contra hnot
      simp [compare_eq_incomparable_iff.mpr hnot] at h
    rcases hcomparable with ⟨hv, hw⟩ | ⟨hv, hw⟩
    · refine .inr ?_
      cases hr : v.rounded? with
      | none => simp [compare_of_nan hv hw (.inl hr)] at h
      | some r =>
        cases hs : w.rounded? with
        | none => simp [compare_of_nan hv hw (.inr hs)] at h
        | some s =>
          rw [compare_of_rounded hr hs] at h
          exact ⟨r, s, rfl, rfl, Comparison.ordered.inj h⟩
    · cases v with
      | string s =>
        cases w with
        | string t =>
          rw [compare_string] at h
          exact .inl ⟨s, t, rfl, rfl, Comparison.ordered.inj h⟩
        | _ => cases hw
      | _ => cases hv
  · rintro (⟨s, t, rfl, rfl, h⟩ | ⟨r, s, hr, hs, h⟩)
    · rw [compare_string, h]
    · rw [compare_of_rounded hr hs, h]

/-- Ties go on in their direction. -/
theorem tie_trans {o : Ordering} (ho : o ≠ .eq) (huv : u.tie v = o) (hvw : v.tie w = o) :
    u.tie w = o := by
  cases u with
  | int k =>
    cases v with
    | int m =>
      cases w with
      | int n => exact cmp_trans huv hvw
      | _ => exact absurd hvw.symm ho
    | _ => exact absurd huv.symm ho
  | _ => exact absurd huv.symm ho

/-- Strictly less and strictly greater are transitive, however the
integers among the values are rounded. -/
theorem compare_trans {o : Ordering} (ho : o ≠ .eq) (huv : u.compare v = .ordered o)
    (hvw : v.compare w = .ordered o) : u.compare w = .ordered o := by
  rw [compare_eq_ordered_iff] at *
  rcases huv with ⟨s, t, rfl, rfl, h⟩ | ⟨r, s, hr, hs, h⟩
  · rcases hvw with ⟨s', t', hs', rfl, h'⟩ | ⟨r', s', hr', -, -⟩
    · cases hs'
      exact .inl ⟨s, t', rfl, rfl, cmp_trans h h'⟩
    · cases hr'
  · rcases hvw with ⟨s', t', rfl, -, -⟩ | ⟨s', t, hs', ht, h'⟩
    · cases hs
    · obtain rfl : s = s' := Option.some_inj.mp (hs.symm.trans hs')
      refine .inr ⟨r, t, hr, ht, ?_⟩
      rw [then_eq_iff_of_ne_eq ho] at *
      -- As doubles the outer two are apart, unless all three are the same double.
      rcases h with h | ⟨h, htie⟩ <;> rcases h' with h' | ⟨h', htie'⟩
      · exact .inl (cmp_trans h h')
      · rw [cmp_eq_eq_iff] at h'
        exact .inl (h' ▸ h)
      · rw [cmp_eq_eq_iff] at h
        exact .inl (h ▸ h')
      · exact .inr ⟨cmp_trans h h', tie_trans ho htie htie'⟩

/-- No value is before or behind itself. -/
theorem compare_self_ne {o : Ordering} (ho : o ≠ .eq) : v.compare v ≠ .ordered o := by
  intro h
  rcases compare_eq_ordered_iff.mp h with ⟨s, t, rfl, ht, h⟩ | ⟨r, s, hr, hs, h⟩
  · cases ht
    exact ho (h.symm.trans (cmp_self_eq_eq s))
  · obtain rfl : r = s := Option.some_inj.mp (hr.symm.trans hs)
    rw [cmp_self_eq_eq, Ordering.eq_then] at h
    cases v with
    | int n => exact ho (h.symm.trans (cmp_self_eq_eq n.toInt))
    | _ => exact ho h.symm

/-- Equality is that of the order, where there is one. -/
theorem equal_iff : v.equal w = true ↔
    v.compare w = .ordered .eq ∨ v.compare w = .incomparable ∧ v = w := by
  cases v with
  | int m =>
    cases w with
    | int n => simp [equal, compare_int, Int64.toInt_inj]
    | _ => simp [equal, compare, toFloat?, compareFloats_eq_iff, compareFloats_ne_incomparable]
  | string s =>
    cases w with
    | string t => simp [equal, compare_string]
    | _ => simp [equal, compare, toFloat?]
  | _ =>
    cases w <;>
      simp [equal, compare, toFloat?, compareFloats_eq_iff, compareFloats_ne_incomparable]

end

end Value

end ScalarScript
