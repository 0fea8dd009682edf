import ScalarScript.Builtin
import ScalarScript.Proofs.Value.Order

/-!
# `ScalarScript.Proofs.Value.Extremes`: the greatest and the least argument

`find_max` and `find_min` walk through their arguments once and compare
each one with the best so far only. Equality is not transitive among
integers and doubles, so what is equal to the best so far need not be
equal to the result. But strictly greater and strictly less are transitive
(`Value.compare_trans`), and this is enough: the result is the best so far
or strictly beyond it (`furthest_ok`), so an argument beyond the result
would have been beyond the best so far too.
-/

set_option autoImplicit false

namespace ScalarScript

namespace Value.Comparable

variable {u v w : Value}

/-- Being comparable is symmetric. -/
theorem symm (h : v.Comparable w) : w.Comparable v :=
  h.imp And.symm And.symm

/-- What is comparable with a number is a number. -/
theorem isNumber (h : v.Comparable w) (hw : w.isNumber = true) : v.isNumber = true := by
  rcases h with ⟨hv, -⟩ | ⟨-, hw'⟩
  · exact hv
  · cases w <;> simp_all [Value.isNumber, Value.isString]

/-- What is comparable with a string is a string. -/
theorem isString (h : v.Comparable w) (hw : w.isString = true) : v.isString = true := by
  rcases h with ⟨-, hw'⟩ | ⟨hv, -⟩
  · cases w <;> simp_all [Value.isNumber, Value.isString]
  · exact hv

/-- Being comparable is transitive. -/
theorem trans (huv : u.Comparable v) (hvw : v.Comparable w) : u.Comparable w := by
  rcases hvw with ⟨hv, hw⟩ | ⟨hv, hw⟩
  · exact .inl ⟨huv.isNumber hv, hw⟩
  · exact .inr ⟨huv.isString hv, hw⟩

end Value.Comparable

namespace Builtin

/-- The direction in which a builtin function looks for an extreme. -/
def direction? : Builtin → Option Ordering
  | findMax => some .gt
  | findMin => some .lt
  | _ => none

/-- The better of the best so far and the next value. -/
def better (wanted : Ordering) (best v : Value) : Value :=
  if v.compare best = .ordered wanted then v else best

/-- A value is the best so far, or strictly beyond it. -/
def Reaches (wanted : Ordering) (r best : Value) : Prop :=
  r = best ∨ r.compare best = .ordered wanted

section

variable {wanted : Ordering} {best v r : Value} {vs : List Value}

/-! ### One step -/

/-- What reaches a value that reaches another reaches the other. -/
theorem Reaches.trans (hwanted : wanted ≠ .eq) {q : Value} (hr : Reaches wanted r q)
    (hq : Reaches wanted q best) : Reaches wanted r best := by
  rcases hr with rfl | hr
  · exact hq
  · rcases hq with rfl | hq
    · exact .inr hr
    · exact .inr (Value.compare_trans hwanted hr hq)

/-- What is not beyond the best so far is not beyond a later one. -/
theorem Reaches.not_beyond (hwanted : wanted ≠ .eq) (hr : Reaches wanted r best)
    (h : v.compare best ≠ .ordered wanted) : v.compare r ≠ .ordered wanted := by
  intro hv
  rcases hr with rfl | hr
  · exact h hv
  · exact h (Value.compare_trans hwanted hv hr)

/-- The better value is the next one if that is beyond the best so far,
and else the best so far. -/
theorem better_cases (wanted : Ordering) (best v : Value) :
    (better wanted best v = v ∧ v.compare best = .ordered wanted) ∨
      (better wanted best v = best ∧ v.compare best ≠ .ordered wanted) := by
  unfold better
  by_cases h : v.compare best = .ordered wanted
  · exact .inl ⟨if_pos h, h⟩
  · exact .inr ⟨if_neg h, h⟩

/-- The better value reaches the best so far. -/
theorem better_reaches : Reaches wanted (better wanted best v) best := by
  rcases better_cases wanted best v with ⟨heq, h⟩ | ⟨heq, -⟩
  · rw [heq]
    exact .inr h
  · exact .inl heq

/-- The next value is not beyond the better one. -/
theorem not_beyond_better (hwanted : wanted ≠ .eq) :
    v.compare (better wanted best v) ≠ .ordered wanted := by
  rcases better_cases wanted best v with ⟨heq, -⟩ | ⟨heq, h⟩
  · rw [heq]
    exact Value.compare_self_ne hwanted
  · rwa [heq]

/-- The better value is comparable with the best so far. -/
theorem comparable_better (wanted : Ordering) (h : v.Comparable best) :
    (better wanted best v).Comparable best := by
  rcases better_cases wanted best v with ⟨heq, -⟩ | ⟨heq, -⟩
  · rwa [heq]
  · rw [heq]
    exact h.symm.trans h

/-- A comparable value is looked at, and the better one is taken further. -/
theorem furthest_cons (h : v.Comparable best) :
    furthest wanted best (v :: vs) = furthest wanted (better wanted best v) vs := by
  rw [furthest, better]
  cases hv : v.compare best with
  | ordered o => simp
  | unordered => simp
  | incomparable => exact absurd h (Value.compare_eq_incomparable_iff.mp hv)

/-- A value that is not comparable ends the search with both types. -/
theorem furthest_cons_of_not_comparable (h : ¬v.Comparable best) :
    furthest wanted best (v :: vs) = .error (.two best.type v.type) := by
  rw [furthest, Value.compare_eq_incomparable_iff.mpr h]

/-! ### All steps -/

/-- The result is one of the values, it is the best so far or strictly
beyond it, and none of the values is beyond it. -/
theorem furthest_ok (hwanted : wanted ≠ .eq) (h : furthest wanted best vs = .ok r) :
    r ∈ best :: vs ∧ Reaches wanted r best ∧ ∀ v ∈ vs, v.compare r ≠ .ordered wanted := by
  induction vs generalizing best with
  | nil =>
    cases h
    exact ⟨by simp, .inl rfl, by simp⟩
  | cons v vs ih =>
    by_cases hv : v.Comparable best
    · rw [furthest_cons hv] at h
      obtain ⟨hmem, hreaches, hrest⟩ := ih h
      refine ⟨?_, hreaches.trans hwanted better_reaches, ?_⟩
      · rcases List.mem_cons.mp hmem with heq | hmem
        · rcases better_cases wanted best v with ⟨hbetter, -⟩ | ⟨hbetter, -⟩ <;>
            simp [heq, hbetter]
        · simp [hmem]
      · simp only [List.forall_mem_cons]
        exact ⟨hreaches.not_beyond hwanted (not_beyond_better hwanted), hrest⟩
    · rw [furthest_cons_of_not_comparable hv] at h
      cases h

/-- There is a result exactly if every value can be compared with the
first. Otherwise the first one that cannot is named, with the best of
those before it. -/
theorem furthest_cases (wanted : Ordering) (best : Value) (vs : List Value) :
    ((∀ v ∈ vs, v.Comparable best) ∧ ∃ r, furthest wanted best vs = .ok r) ∨
      ∃ before v after r, vs = before ++ v :: after ∧ ¬v.Comparable best ∧
        furthest wanted best before = .ok r ∧
        furthest wanted best vs = .error (.two r.type v.type) := by
  induction vs generalizing best with
  | nil => exact .inl ⟨by simp, best, rfl⟩
  | cons v vs ih =>
    by_cases hv : v.Comparable best
    · have hbetter := comparable_better wanted hv
      rcases ih (better wanted best v) with
        ⟨hall, r, hr⟩ | ⟨before, w, after, r, rfl, hw, hbefore, herror⟩
      · refine .inl ⟨?_, r, by rw [furthest_cons hv, hr]⟩
        simp only [List.forall_mem_cons]
        exact ⟨hv, fun w hw => (hall w hw).trans hbetter⟩
      · refine .inr ⟨v :: before, w, after, r, rfl, fun h => hw (h.trans hbetter.symm), ?_, ?_⟩
        · rw [furthest_cons hv, hbefore]
        · rw [furthest_cons hv, herror]
    · exact .inr ⟨[], v, vs, best, rfl, hv, rfl, furthest_cons_of_not_comparable hv⟩

/-! ### The calls -/

/-- The values are all numbers, or all strings. -/
def OneKind (vs : List Value) : Prop :=
  (∀ v ∈ vs, v.isNumber = true) ∨ ∀ v ∈ vs, v.isString = true

/-- Values are of one kind exactly if the first is comparable with itself
and all others are with it. -/
theorem oneKind_cons_iff :
    OneKind (v :: vs) ↔ v.Comparable v ∧ ∀ w ∈ vs, w.Comparable v := by
  simp only [OneKind, List.forall_mem_cons]
  constructor
  · rintro (⟨hv, hall⟩ | ⟨hv, hall⟩)
    · exact ⟨.inl ⟨hv, hv⟩, fun w hw => .inl ⟨hall w hw, hv⟩⟩
    · exact ⟨.inr ⟨hv, hv⟩, fun w hw => .inr ⟨hall w hw, hv⟩⟩
  · rintro ⟨⟨hv, -⟩ | ⟨hv, -⟩, hall⟩
    · exact .inl ⟨hv, fun w hw => (hall w hw).isNumber hv⟩
    · exact .inr ⟨hv, fun w hw => (hall w hw).isString hv⟩

/-- A value is comparable with itself exactly if it is a number or a
string. -/
theorem comparable_self_iff : v.Comparable v ↔ (v.isNumber || v.isString) = true := by
  simp [Value.Comparable]

/-- A first value that can be compared starts the search. -/
theorem extreme_of_comparable (h : v.Comparable v) :
    extreme wanted v vs = furthest wanted v vs :=
  if_pos (comparable_self_iff.mp h)

/-- A first value that cannot be compared is refused. -/
theorem extreme_of_not_comparable (h : ¬v.Comparable v) :
    extreme wanted v vs = .error (.one v.type) :=
  if_neg fun hv => h (comparable_self_iff.mpr hv)

/-- `find_max` and `find_min` search in their direction. -/
theorem call_of_direction {b : Builtin} (hb : b.direction? = some wanted) (p : Position) :
    b.call (v :: vs) p = found b p (extreme wanted v vs) := by
  cases b <;> cases hb <;> rfl

/-- `find_max` and `find_min` have a direction. -/
theorem direction_ne_eq {b : Builtin} (hb : b.direction? = some wanted) : wanted ≠ .eq := by
  cases b <;> cases hb <;> decide

/-- A call that looks for an extreme and finds one. -/
theorem call_of_furthest_ok {b : Builtin} (hb : b.direction? = some wanted)
    (hv : v.Comparable v) (h : furthest wanted v vs = .ok r) (p : Position) (t : Terminal) :
    b.call (v :: vs) p t = .ok r t := by
  rw [call_of_direction hb, extreme_of_comparable hv, h]
  rfl

/-- A call that looks for an extreme either has arguments of one kind and
finds one, or reports the first argument that does not fit in. -/
theorem call_cases {b : Builtin} (hb : b.direction? = some wanted) (first : Value)
    (others : List Value) (p : Position) (t : Terminal) :
    (OneKind (first :: others) ∧ ∃ r, b.call (first :: others) p t = .ok r t ∧
      r ∈ first :: others ∧ ∀ v ∈ first :: others, v.compare r ≠ .ordered wanted) ∨
    ¬OneKind (first :: others) ∧ ∃ types, b.call (first :: others) p t =
        .error (.badOperandType b.name types "function call" p) t ∧
      (¬OneKind [first] ∧ types = .one first.type ∨
        ∃ before v after r, others = before ++ v :: after ∧ ¬OneKind [first, v] ∧
          b.call (first :: before) p t = .ok r t ∧ types = .two r.type v.type) := by
  have hwanted := direction_ne_eq hb
  by_cases hfirst : first.Comparable first
  · rcases furthest_cases wanted first others with
      ⟨hall, r, hr⟩ | ⟨before, v, after, r, rfl, hv, hbefore, herror⟩
    · obtain ⟨hmem, hreaches, hrest⟩ := furthest_ok hwanted hr
      have hnot := hreaches.not_beyond hwanted (Value.compare_self_ne hwanted)
      exact .inl ⟨oneKind_cons_iff.mpr ⟨hfirst, hall⟩, r, call_of_furthest_ok hb hfirst hr p t,
        hmem, List.forall_mem_cons.mpr ⟨hnot, hrest⟩⟩
    -- The values in front of `v` are of one kind, so the search has come as far as `v`.
    · have hcall : b.call (first :: (before ++ v :: after)) p t =
          .error (.badOperandType b.name (.two r.type v.type) "function call" p) t := by
        rw [call_of_direction hb, extreme_of_comparable hfirst, herror]
        rfl
      refine .inr ⟨?_, _, hcall, .inr ⟨before, v, after, r, rfl, ?_,
        call_of_furthest_ok hb hfirst hbefore p t, rfl⟩⟩
      · intro hkind
        exact hv ((oneKind_cons_iff.mp hkind).2 v (by simp))
      · intro hkind
        exact hv ((oneKind_cons_iff.mp hkind).2 v (by simp))
  · have hcall : b.call (first :: others) p t =
        .error (.badOperandType b.name (.one first.type) "function call" p) t := by
      rw [call_of_direction hb, extreme_of_not_comparable hfirst]
      rfl
    exact .inr ⟨fun hkind => hfirst (oneKind_cons_iff.mp hkind).1, _, hcall,
      .inl ⟨fun hkind => hfirst (oneKind_cons_iff.mp hkind).1, rfl⟩⟩

end

/-- A call that looks for an extreme gives a value exactly if its
arguments are all numbers or all strings. The value is one of the
arguments, and no argument is greater, or less where the least is looked
for. Otherwise the error names the type of the first argument, or that of
the best so far and that of the first argument of another kind. -/
theorem call_extreme {b : Builtin} {wanted : Ordering} (hb : b.direction? = some wanted)
    (first : Value) (others : List Value) (p : Position) (t : Terminal) :
    ((∃ r t', b.call (first :: others) p t = .ok r t') ↔ OneKind (first :: others)) ∧
      (∀ r t', b.call (first :: others) p t = .ok r t' →
        t' = t ∧ r ∈ first :: others ∧ ∀ v ∈ first :: others, v.compare r ≠ .ordered wanted) ∧
      (¬OneKind (first :: others) → ∃ types,
        b.call (first :: others) p t =
          .error (.badOperandType b.name types "function call" p) t ∧
        (¬OneKind [first] ∧ types = .one first.type ∨
          ∃ before v after r, others = before ++ v :: after ∧ ¬OneKind [first, v] ∧
            b.call (first :: before) p t = .ok r t ∧ types = .two r.type v.type)) := by
  rcases call_cases hb first others p t with
    ⟨hkind, r, hcall, hmem, hnone⟩ | ⟨hkind, types, hcall, hnamed⟩
  · refine ⟨⟨fun _ => hkind, fun _ => ⟨r, t, hcall⟩⟩, fun r' t' h => ?_, fun h => absurd hkind h⟩
    rw [hcall] at h
    cases h
    exact ⟨rfl, hmem, hnone⟩
  · have hfails : ∀ r t', b.call (first :: others) p t ≠ .ok r t' := by simp [hcall]
    refine ⟨⟨?_, fun h => absurd h hkind⟩, fun r t' h => absurd h (hfails r t'),
      fun _ => ⟨types, hcall, hnamed⟩⟩
    rintro ⟨r, t', h⟩
    exact absurd h (hfails r t')

/-- The double `2 ^ 53` comes first, and the integer `2 ^ 53 + 1` is not
greater, because it is compared as the same double. -/
theorem call_extreme_two_to_53 :
    let double := Value.float (Float.ofBits 0x4340000000000000)
    let arguments := [double, .int 9007199254740993, .float (0.0 / 0.0)]
    findMax.call arguments ⟨1, 1, 1⟩ (.scripted []) = .ok double (.scripted []) ∧
      ∀ v ∈ arguments, v.compare double ≠ .ordered .gt := by
  intro double arguments
  have hcall : findMax.call arguments ⟨1, 1, 1⟩ (.scripted []) = .ok double (.scripted []) := rfl
  exact ⟨hcall, ((call_extreme rfl _ _ _ _).2.1 _ _ hcall).2.2⟩

end Builtin

end ScalarScript
