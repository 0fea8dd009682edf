import Mathlib.Algebra.BigOperators.Group.List.Basic
import ScalarScript.Proofs.Integer
import ScalarScript.Proofs.Run.Outcome

/-!
# `ScalarScript.Proofs.Expr.Integers`: integer arithmetic is exact

An expression of integers is made of literals, integer variables,
opposites, sums and products (`Expr.Integral`). `Expr.exact` is its
value in the integers without bounds. `Expr.steps` lists the operations
of its evaluation in the order in which they are made, each with its
exact result: an operand comes before the operation on it, and the
accumulator of a chain starts from the empty sum or the empty product.

`Expr.eval_integral` says what becomes of the evaluation. It has a value
exactly if every step stays in range, the value is then the exact one,
and otherwise the first step out of range is reported, at its place.

The proof carries `Run.Computes`, which says this of any run, along the
expression. Only `Run.Computes.bind` looks at two lists of steps one
behind the other; everything else is one step.
-/

set_option autoImplicit false

namespace ScalarScript

/-! ### The exact value and the steps to it -/

namespace ArithmeticOp

/-- The sum or product of two numbers. -/
def exact : ArithmeticOp → Int → Int → Int
  | add, a, b => a + b
  | multiply, a, b => a * b

/-- The sum or product of several numbers. -/
def ofAll : ArithmeticOp → List Int → Int
  | add => List.sum
  | multiply => List.prod

/-- The exact value of a chain starts with its first operand. -/
theorem ofAll_cons (op : ArithmeticOp) (z : Int) (zs : List Int) :
    op.ofAll (z :: zs) = op.exact z (op.ofAll zs) := by
  cases op <;> simp [ofAll, exact]

/-- Exact sums and products do not depend on how they are grouped. -/
theorem exact_assoc (op : ArithmeticOp) (a b c : Int) :
    op.exact (op.exact a b) c = op.exact a (op.exact b c) := by
  cases op
  · exact Int.add_assoc a b c
  · exact Int.mul_assoc a b c

/-- The value of an empty chain is neutral on the right. -/
theorem exact_ofAll_nil (op : ArithmeticOp) (z : Int) : op.exact z (op.ofAll []) = z := by
  cases op <;> simp [ofAll, exact]

/-- The value of an empty chain is neutral on the left. -/
theorem ofAll_nil_exact (op : ArithmeticOp) (z : Int) : op.exact (op.ofAll []) z = z := by
  cases op <;> simp [ofAll, exact]

end ArithmeticOp

/-- The expressions of integer arithmetic over the variables of a frame. -/
inductive Expr.Integral (vars : Bindings) : Expr → Prop
  | int (n : Int64) (p : Position) : Integral vars (.int n p)
  | name {s : String} {n : Int64} (p : Position) :
      vars.get? s = some (.int n) → Integral vars (.name s p)
  | negate {e : Expr} (p : Position) : Integral vars e → Integral vars (.unary .negate e p)
  | chain {op : ArithmeticOp} {es : List Expr} (p : Position) :
      (∀ e ∈ es, Integral vars e) → Integral vars (.arithmetic op es p)

/-- The number that a value is, if it is an integer. -/
def Value.exact : Value → Int
  | .int n => n.toInt
  | _ => 0

mutual

/-- The value of an expression of integers, in the integers without
bounds. -/
def Expr.exact (vars : Bindings) : Expr → Int
  | .int n _ => n.toInt
  | .name s _ => ((vars.get? s).map Value.exact).getD 0
  | .unary .negate e _ => -Expr.exact vars e
  | .arithmetic op es _ => op.ofAll (exactAll vars es)
  | _ => 0

/-- The exact values of several expressions. -/
def exactAll (vars : Bindings) : List Expr → List Int
  | [] => []
  | e :: es => Expr.exact vars e :: exactAll vars es

end

/-- One operation of an evaluation: its exact result, how a message about
it shows it, and the place that the message names. -/
structure IntegerStep where
  result : Int
  operation : Operation
  place : Position

namespace IntegerStep

/-- The result of a step is an integer of the language. -/
def Fits (s : IntegerStep) : Prop :=
  Integer.InRange s.result

instance (s : IntegerStep) : Decidable s.Fits :=
  inferInstanceAs (Decidable (Integer.InRange s.result))

/-- The step from a number to its opposite, at the place of the sign. -/
def negate (z : Int) (sign : Position) : IntegerStep :=
  ⟨-z, .negate (Int64.ofInt z), sign⟩

/-- The step of a chain from its total so far to the total with the next
operand, at the place of that operand. -/
def combine (op : ArithmeticOp) (total z : Int) (operand : Position) : IntegerStep :=
  ⟨op.exact total z, .combine op (Int64.ofInt total) (Int64.ofInt z), operand⟩

/-- Where not all steps fit, there is a first one that does not. -/
theorem exists_first_misfit {steps : List IntegerStep} (h : ¬∀ s ∈ steps, s.Fits) :
    ∃ before s after, steps = before ++ s :: after ∧ (∀ s' ∈ before, s'.Fits) ∧ ¬s.Fits := by
  cases hfind : steps.find? fun s => decide (¬s.Fits) with
  | none => exact absurd (by simpa using hfind) h
  | some s =>
    obtain ⟨hs, before, after, hsteps, hbefore⟩ := List.find?_eq_some_iff_append.mp hfind
    exact ⟨before, s, after, hsteps, by simpa using hbefore, by simpa using hs⟩

end IntegerStep

mutual

/-- The operations of an evaluation, in the order in which they are
made. -/
def Expr.steps (vars : Bindings) : Expr → List IntegerStep
  | .unary .negate e p => Expr.steps vars e ++ [.negate (e.exact vars) p]
  | .arithmetic op es _ => chainSteps vars op (op.ofAll []) es
  | _ => []

/-- The operations of the rest of a chain that has come to a total. -/
def chainSteps (vars : Bindings) (op : ArithmeticOp) (total : Int) :
    List Expr → List IntegerStep
  | [] => []
  | e :: es =>
    Expr.steps vars e ++ .combine op total (e.exact vars) e.position ::
      chainSteps vars op (op.exact total (e.exact vars)) es

end

/-! ### Runs that make such steps -/

namespace Run

/-- The run makes the steps and gives the number they lead to, or stops
at the first of them that leaves the range. It does nothing at the
terminal. -/
structure Computes (r : Run RuntimeError Value) (steps : List IntegerStep) (z : Int) : Prop where
  value : (∀ s ∈ steps, s.Fits) →
    Integer.InRange z ∧ ∀ t, r t = .ok (.int (Int64.ofInt z)) t
  overflow : ∀ before s after, steps = before ++ s :: after → (∀ s' ∈ before, s'.Fits) →
    ¬s.Fits → ∀ t, r t = .error (.integerOverflow s.operation s.place) t

namespace Computes

variable {r : Run RuntimeError Value} {xs ys : List IntegerStep} {z w : Int}

/-- An integer in range is computed without a step. -/
theorem pure (h : Integer.InRange z) : Computes (pure (.int (Int64.ofInt z))) [] z where
  value := fun _ => ⟨h, fun _ => rfl⟩
  overflow := fun before s after hsteps => by simp at hsteps

/-- A literal is computed without a step. -/
theorem pure_int (n : Int64) : Computes (Pure.pure (.int n)) [] n.toInt := by
  simpa using pure (Integer.inRange_toInt n)

/-- Steps made one after the other. The second run starts from a number
in range, since the first one gave it. -/
theorem bind {next : Value → Run RuntimeError Value} (h : Computes r xs z)
    (hnext : Integer.InRange z → Computes (next (.int (Int64.ofInt z))) ys w) :
    Computes (r >>= next) (xs ++ ys) w where
  value := by
    intro hall
    obtain ⟨hz, hr⟩ := h.value fun s hs => hall s (List.mem_append_left _ hs)
    obtain ⟨hw, hn⟩ := (hnext hz).value fun s hs => hall s (List.mem_append_right _ hs)
    refine ⟨hw, fun t => ?_⟩
    rw [bind_apply, hr t]
    exact hn t
  overflow := by
    intro before s after hsteps hbefore hs t
    -- The first misfit is one of the first run's steps, or all of those fit and it is one of
    -- the second run's.
    obtain ⟨front, hfront, hys⟩ | ⟨front, hxs, hrest⟩ := List.append_eq_append_iff.mp hsteps
    · subst hfront
      obtain ⟨hz, hr⟩ := h.value fun s hs => hbefore s (List.mem_append_left _ hs)
      rw [bind_apply, hr t]
      exact (hnext hz).overflow front s after hys
        (fun s hs => hbefore s (List.mem_append_right _ hs)) hs t
    · cases front with
      | nil =>
        obtain ⟨hz, hr⟩ := h.value (by simpa [hxs] using hbefore)
        rw [bind_apply, hr t]
        exact (hnext hz).overflow [] s after (by simpa using hrest.symm) (by simp) hs t
      | cons s' front =>
        obtain ⟨rfl, -⟩ := List.cons.inj hrest
        rw [bind_apply, h.overflow before s front hxs hbefore hs t]

/-- One step, whose result is checked. -/
theorem step {s : IntegerStep} {result : Except RuntimeError Value}
    (hfits : s.Fits → result = .ok (.int (Int64.ofInt s.result)))
    (hmisfits : ¬s.Fits → result = .error (.integerOverflow s.operation s.place)) :
    Computes (ofExcept result) [s] s.result where
  value := by
    intro hall
    have hs := hall s (by simp)
    refine ⟨hs, fun t => ?_⟩
    rw [hfits hs]
    rfl
  overflow := by
    intro before s' after hsteps _ hs' t
    cases before with
    | nil =>
      obtain ⟨rfl, -⟩ := List.cons.inj hsteps
      rw [hmisfits hs']
      rfl
    | cons _ _ => simp at hsteps

end Computes

end Run

/-- Negating an integer is one step. -/
theorem UnaryOp.negate_computes {z : Int} (hz : Integer.InRange z) (e : Expr) (p : Position) :
    Run.Computes (Run.ofExcept (UnaryOp.negate.apply (.int (Int64.ofInt z)) e p))
      [.negate z p] (-z) := by
  refine Run.Computes.step (s := .negate z p) (fun h => ?_) (fun h => ?_) <;>
    simp only [UnaryOp.apply, Integer.neg?, Integer.toInt_ofInt hz]
  · rw [Integer.ofInt?_of_inRange (z := -z) h]
    rfl
  · rw [Integer.ofInt?_of_not_inRange (z := -z) h]
    rfl

/-- Taking an operand into a chain is one step. -/
theorem ArithmeticOp.combine_computes (op : ArithmeticOp) {total z : Int}
    (htotal : Integer.InRange total) (hz : Integer.InRange z) (e : Expr) :
    Run.Computes
      (Run.ofExcept (op.combine (.int (Int64.ofInt total)) (.int (Int64.ofInt z)) e))
      [.combine op total z e.position] (op.exact total z) := by
  have hop : op.onIntegers? (Int64.ofInt total) (Int64.ofInt z) =
      Integer.ofInt? (op.exact total z) := by
    cases op <;>
      simp only [onIntegers?, exact, Integer.add?, Integer.mul?, Integer.toInt_ofInt htotal,
        Integer.toInt_ofInt hz]
  refine Run.Computes.step (s := .combine op total z e.position) (fun h => ?_) (fun h => ?_) <;>
    simp only [combine, hop]
  · rw [Integer.ofInt?_of_inRange (z := op.exact total z) h]
    rfl
  · rw [Integer.ofInt?_of_not_inRange (z := op.exact total z) h]
    rfl

/-! ### Evaluation -/

variable {vars : Bindings} {call : Caller}

/-- A chain that has come to a total in range goes on with the steps of
its remaining operands. -/
theorem evalArithmetic_computes (op : ArithmeticOp) {total : Int} (htotal : Integer.InRange total)
    (es : List Expr)
    (hes : ∀ e ∈ es, Run.Computes (e.eval call vars) (e.steps vars) (e.exact vars)) :
    Run.Computes (evalArithmetic call vars op (.int (Int64.ofInt total)) es)
      (chainSteps vars op total es) (op.exact total (op.ofAll (exactAll vars es))) := by
  induction es generalizing total with
  | nil =>
    rw [exactAll, op.exact_ofAll_nil]
    exact .pure htotal
  | cons e es ih =>
    rw [evalArithmetic, chainSteps, exactAll, op.ofAll_cons, ← op.exact_assoc]
    refine (hes e (by simp)).bind fun hz => ?_
    rw [← List.singleton_append]
    refine (op.combine_computes htotal hz e).bind fun htotal' => ?_
    exact ih htotal' fun e' he' => hes e' (List.mem_cons_of_mem e he')

/-- The evaluation of an expression of integers makes its steps. -/
theorem Expr.Integral.computes {e : Expr} (h : e.Integral vars) :
    Run.Computes (e.eval call vars) (e.steps vars) (e.exact vars) := by
  induction h with
  | int n p => exact .pure_int n
  | name p hs =>
    simp only [Expr.eval, Expr.steps, Expr.exact, hs]
    exact .pure_int _
  | negate p _ ih =>
    rw [Expr.eval, Expr.steps, Expr.exact]
    exact ih.bind fun hz => UnaryOp.negate_computes hz _ p
  | @chain op es p _ ih =>
    have hunit : op.unit = Int64.ofInt (op.ofAll []) := by cases op <;> rfl
    have hstart : Integer.InRange (op.ofAll []) := by cases op <;> decide
    have hrest := evalArithmetic_computes op hstart es ih
    rw [op.ofAll_nil_exact, ← hunit] at hrest
    simpa only [Expr.eval, Expr.steps, Expr.exact] using hrest

/-- The evaluation of an expression of integers gives a value exactly if
every opposite, partial sum and partial product on the way is in range.
The value is then the exact one. Otherwise the first step out of range
is an overflow, at the operand that was taken in or at the sign. -/
theorem Expr.eval_integral (call : Caller) {e : Expr} (h : e.Integral vars) (t : Terminal) :
    ((∃ v t', e.eval call vars t = .ok v t') ↔ ∀ s ∈ e.steps vars, s.Fits) ∧
      (∀ v t', e.eval call vars t = .ok v t' →
        t' = t ∧ ∃ n : Int64, v = .int n ∧ n.toInt = e.exact vars) ∧
      ∀ before s after, e.steps vars = before ++ s :: after → (∀ s' ∈ before, s'.Fits) →
        ¬s.Fits → e.eval call vars t = .error (.integerOverflow s.operation s.place) t := by
  have hcomputes : Run.Computes (e.eval call vars) (e.steps vars) (e.exact vars) := h.computes
  have hfits : ∀ v t', e.eval call vars t = .ok v t' → ∀ s ∈ e.steps vars, s.Fits := by
    intro v t' heval
    -- Steps that do not all fit have a first one that does not, and there the evaluation stops.
    by_contra hall
    obtain ⟨before, s, after, hsteps, hbefore, hs⟩ := IntegerStep.exists_first_misfit hall
    simp [hcomputes.overflow before s after hsteps hbefore hs t] at heval
  refine ⟨⟨?_, fun hall => ?_⟩, fun v t' heval => ?_,
    fun before s after hsteps hbefore hs => hcomputes.overflow before s after hsteps hbefore hs t⟩
  · rintro ⟨v, t', heval⟩
    exact hfits v t' heval
  · obtain ⟨-, hvalue⟩ := hcomputes.value hall
    exact ⟨_, t, hvalue t⟩
  · obtain ⟨hrange, hvalue⟩ := hcomputes.value (hfits v t' heval)
    rw [hvalue t] at heval
    cases heval
    exact ⟨rfl, _, rfl, Integer.toInt_ofInt hrange⟩

/-- The text `x + 1 - 1`, where `x` is the greatest integer. Its exact
value is in range, but the partial sum `x + 1` is not, and the overflow
is reported at the operand `1`. -/
theorem Expr.eval_integral_partial_sum :
    let vars : Bindings := [("x", .int 9223372036854775807)]
    let e : Expr := .arithmetic .add [.name "x" ⟨1, 1, 1⟩, .int 1 ⟨1, 5, 5⟩,
      .unary .negate (.int 1 ⟨1, 9, 9⟩) ⟨1, 7, 7⟩] ⟨1, 1, 1⟩
    let call : Caller := fun f _ p => Run.fail (.undefinedFunction f p)
    e.Integral vars ∧ Integer.InRange (e.exact vars) ∧
    e.eval call vars (.scripted []) =
      .error (.integerOverflow (.combine .add 9223372036854775807 1) ⟨1, 5, 5⟩) (.scripted []) := by
  intro vars e call
  have hintegral : e.Integral vars := by
    refine .chain _ fun operand hoperand => ?_
    simp only [List.mem_cons, List.not_mem_nil, or_false] at hoperand
    obtain rfl | rfl | rfl := hoperand
    · exact .name _ rfl
    · exact .int 1 _
    · exact .negate _ (.int 1 _)
  have hlast := (Expr.eval_integral call hintegral (.scripted [])).2.2
    [.combine .add 0 9223372036854775807 ⟨1, 1, 1⟩] (.combine .add 9223372036854775807 1 ⟨1, 5, 5⟩)
    _ rfl (by decide) (by decide)
  exact ⟨hintegral, by decide, hlast⟩

end ScalarScript
