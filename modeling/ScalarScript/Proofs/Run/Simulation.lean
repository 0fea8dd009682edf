import ScalarScript.Execution
import ScalarScript.Proofs.Alike
import ScalarScript.Proofs.Run.Outcome

/-!
# `ScalarScript.Proofs.Run.Simulation`: relations that all runs keep

Evaluation and execution put runs together from a few pieces: values,
failures, one run after another, and loops. A relation between runs that
these pieces keep (`Run.Congruence`) holds between two executions of a
statement as soon as it holds between the two ways in which they call
functions. That is `Stmt.exec_related`, and it is proved once for all
such relations.

The two statements need not be the same. They may differ in their places,
where a relation `P` relates the places of the first to those of the
second (`Stmt.Alike P`). Then the errors of the two runs differ in the
same way, and a congruence has to relate errors that are `Alike P`. With
equality for `P` the statements are equal, and the errors too.

A relation takes a relation between values with it, `R V r r'`, since the
two runs need not give the same values: the frames of two executions may
have different call budgets (`Frame.Alike`).

Two loops may be given different numbers of rounds. A loop without rounds
left is `Run.stuck`. The second loop may have more of them
(`Run.Rounds`) if the relation holds between a stuck run and whatever a
longer loop does.

`Scope.call_related` and `Scope.run_related` are the same for calls and
for whole programs. `Scope.Mirrors` says what the two scopes have to do
with each other: a name that stands for a function in the first one stands
for a function that is alike in the second, which has a greater call
budget. What happens where the first finds no function or has used up its
budget is left to the relation.
-/

set_option autoImplicit false

namespace ScalarScript

/-- The run that never ends. -/
def Run.stuck {ε α : Type} : Run ε α := fun _ => .unfinished

/-- A relation between runs, over a relation between their values. -/
abbrev RunRelation :=
  ∀ ⦃α α' : Type⦄, (α → α' → Prop) → Run RuntimeError α → Run RuntimeError α' → Prop

/-- The relation is kept when runs are put together, and it holds between
failures that are the same but for their places. -/
structure Run.Congruence (P : Position → Position → Prop) (R : RunRelation) : Prop where
  value : ∀ {α α' : Type} {V : α → α' → Prop} {a : α} {a' : α'}, V a a' → R V (pure a) (pure a')
  fail : ∀ {α α' : Type} {V : α → α' → Prop} {e e' : RuntimeError},
    e.Alike P e' → R V (Run.fail e) (Run.fail e')
  bind : ∀ {α α' β β' : Type} {V : α → α' → Prop} {W : β → β' → Prop}
    {r : Run RuntimeError α} {r' : Run RuntimeError α'} {next : α → Run RuntimeError β}
    {next' : α' → Run RuntimeError β'},
    R V r r' → (∀ a a', V a a' → R W (next a) (next' a')) → R W (r >>= next) (r' >>= next')
  stuck : ∀ {α α' : Type} {V : α → α' → Prop}, R V Run.stuck Run.stuck

/-- The rounds that two loops are given: as many for both, or more for the
second if the relation holds where the first one is stuck. -/
inductive Run.Rounds (R : RunRelation) : Nat → Nat → Prop
  | same (n : Nat) : Rounds R n n
  | more {n m : Nat} : n ≤ m →
      (∀ {α α' : Type} {V : α → α' → Prop} {r : Run RuntimeError α} {r' : Run RuntimeError α'},
        R V r r' → R V Run.stuck r') →
      Rounds R n m

/-- Two frames with the same variables, whatever their call budgets. -/
structure Frame.Alike (f f' : Frame) : Prop where
  function_eq : f'.function = f.function
  bindings_eq : f'.bindings = f.bindings

namespace Frame.Alike

variable {f f' : Frame}

/-- Frames that are alike have the same variables. -/
theorem get?_eq (h : f.Alike f') (name : String) : f'.get? name = f.get? name := by
  rw [Frame.get?, Frame.get?, h.bindings_eq]

/-- Frames that are alike know the same names. -/
theorem contains_eq (h : f.Alike f') (name : String) : f'.contains name = f.contains name := by
  rw [Frame.contains, Frame.contains, h.bindings_eq]

/-- Frames that are alike stay so when a variable is set. -/
theorem set (h : f.Alike f') (name : String) (v : Value) : (f.set name v).Alike (f'.set name v) :=
  ⟨h.function_eq, congrArg (fun b => Bindings.set b name v) h.bindings_eq⟩

end Frame.Alike

/-- Two executions end alike: with frames that are alike, and with the
same signal. -/
inductive EndAlike : Frame × Signal → Frame × Signal → Prop
  | mk {f f' : Frame} {signal : Signal} : f.Alike f' → EndAlike (f, signal) (f', signal)

/-! ### Operators -/

/-- Two results without effects: the same value, or errors that are the
same but for their places. -/
inductive ResultAlike (P : Position → Position → Prop) {α : Type} :
    Except RuntimeError α → Except RuntimeError α → Prop
  | ok {a : α} : ResultAlike P (.ok a) (.ok a)
  | error {e e' : RuntimeError} : e.Alike P e' → ResultAlike P (.error e) (.error e')

section

variable {P : Position → Position → Prop} {p p' : Position} {e e' : Expr}

/-- A bad operand is reported alike. -/
theorem badOperand_alike (operator : String) (v : Value) (he : e.Alike P e') :
    (badOperand operator v e).Alike P (badOperand operator v e') := by
  rw [badOperand, badOperand, he.description_eq]
  exact .badOperandType he.position

/-- Arithmetic gives the same value or errors that are alike. -/
theorem ArithmeticOp.combine_alike (op : ArithmeticOp) (total v : Value) (he : e.Alike P e') :
    ResultAlike P (op.combine total v e) (op.combine total v e') := by
  unfold ArithmeticOp.combine
  split
  · split
    · exact .ok
    · exact .error (.integerOverflow he.position)
  · split
    · exact .ok
    · exact .error (badOperand_alike op.text v he)

/-- A unary operator gives the same value or errors that are alike. -/
theorem UnaryOp.apply_alike (op : UnaryOp) (v : Value) (he : e.Alike P e') (hp : P p p') :
    ResultAlike P (op.apply v e p) (op.apply v e' p') := by
  unfold UnaryOp.apply
  split
  · split
    · exact .ok
    · exact .error (.integerOverflow hp)
  · exact .ok
  · exact .ok
  · split
    · exact .error (.divisionByZero hp)
    · exact .ok
  · split
    · exact .error (.divisionByZero hp)
    · exact .ok
  · exact .error (badOperand_alike _ _ he)

/-- A comparison gives the same value or errors that are alike. -/
theorem ComparisonOp.apply_alike (op : ComparisonOp) (v w : Value) (hp : P p p') :
    ResultAlike P (op.apply v w p) (op.apply v w p') := by
  unfold ComparisonOp.apply
  split
  · exact .ok
  · exact .ok
  · split
    · exact .ok
    · exact .ok
    · exact .error (.badOperandType hp)

/-- A value is stored on both sides, or refused with errors that are
alike. -/
theorem Value.stored_alike (type : DeclaredType) (destination : Destination) (name : String)
    (v : Value) (hp : P p p') :
    ResultAlike P (v.stored type destination name p) (v.stored type destination name p') := by
  unfold Value.stored
  split
  · exact .ok
  · exact .error (.typeMismatch hp)

end

section

variable {P : Position → Position → Prop} {R : RunRelation} (hR : Run.Congruence P R)
  {call call' : Caller}
include hR

/-- One run after another, where the first gives the same value. -/
theorem Run.bind_related {α β β' : Type} {W : β → β' → Prop} {r r' : Run RuntimeError α}
    {next : α → Run RuntimeError β} {next' : α → Run RuntimeError β'} (hr : R Eq r r')
    (hnext : ∀ a, R W (next a) (next' a)) : R W (r >>= next) (r' >>= next') := by
  refine hR.bind hr ?_
  rintro a _ rfl
  exact hnext a

/-- Results that are alike become runs that are related. -/
theorem Run.ofExcept_related {α : Type} {x x' : Except RuntimeError α} (h : ResultAlike P x x') :
    R Eq (Run.ofExcept x) (Run.ofExcept x') := by
  cases h with
  | ok => exact hR.value rfl
  | error he => exact hR.fail he

/-! ### Expressions -/

variable {vars : Bindings}

/-- Lists of expressions are evaluated to related runs, if each expression
is. -/
theorem evalAll_related {es es' : List Expr} (hes : List.Forall₂ (Expr.Alike P) es es')
    (h : ∀ e ∈ es, ∀ {e'}, e.Alike P e' → R Eq (e.eval call vars) (e'.eval call' vars)) :
    R Eq (evalAll call vars es) (evalAll call' vars es') := by
  induction hes with
  | nil => exact hR.value rfl
  | @cons e e' es es' he _ ih =>
    rw [evalAll, evalAll]
    refine Run.bind_related hR (h e (by simp) he) fun v => ?_
    refine Run.bind_related hR (ih fun e he => h e (by simp [he])) fun vs => ?_
    exact hR.value rfl

/-- Chains of operands are combined in related runs, if each operand is
evaluated so. -/
theorem evalArithmetic_related (op : ArithmeticOp) {es es' : List Expr}
    (hes : List.Forall₂ (Expr.Alike P) es es')
    (h : ∀ e ∈ es, ∀ {e'}, e.Alike P e' → R Eq (e.eval call vars) (e'.eval call' vars))
    (total : Value) :
    R Eq (evalArithmetic call vars op total es) (evalArithmetic call' vars op total es') := by
  induction hes generalizing total with
  | nil => exact hR.value rfl
  | @cons e e' es es' he _ ih =>
    rw [evalArithmetic, evalArithmetic]
    refine Run.bind_related hR (h e (by simp) he) fun v => ?_
    refine Run.bind_related hR (Run.ofExcept_related hR (op.combine_alike total v he)) fun total => ?_
    exact ih (fun e he => h e (by simp [he])) total

/-- Chains of conditions are evaluated in related runs, if each operand
is. -/
theorem evalLogical_related (op : LogicalOp) {es es' : List Expr}
    (hes : List.Forall₂ (Expr.Alike P) es es')
    (h : ∀ e ∈ es, ∀ {e'}, e.Alike P e' → R Eq (e.eval call vars) (e'.eval call' vars)) :
    R Eq (evalLogical call vars op es) (evalLogical call' vars op es') := by
  induction hes with
  | nil => exact hR.value rfl
  | @cons e e' es es' he _ ih =>
    rw [evalLogical, evalLogical]
    refine Run.bind_related hR (h e (by simp) he) fun v => ?_
    split
    · exact hR.fail (badOperand_alike op.text v he)
    · split
      · exact hR.value rfl
      · exact ih fun e he => h e (by simp [he])

variable (hcall : ∀ name args {p p'}, P p p' → R Eq (call name args p) (call' name args p'))
include hcall

/-- Expressions that are alike are evaluated in related runs. The
induction is on the first one. -/
theorem Expr.eval_related {e e' : Expr} (he : e.Alike P e') :
    R Eq (e.eval call vars) (e'.eval call' vars) := by
  induction e using Expr.induction generalizing e' with
  | int n p | float x p | string s p =>
    cases he with
    | _ hp => exact hR.value rfl
  | name s p =>
    cases he with
    | name hp =>
      rw [Expr.eval, Expr.eval]
      split
      · exact hR.value rfl
      · exact hR.fail (.undefinedVariable hp)
  -- Operands are evaluated in order, so each case joins their runs in that order.
  | call f args p ih =>
    cases he with
    | call hargs hp =>
      rw [Expr.eval, Expr.eval]
      exact Run.bind_related hR (evalAll_related hR hargs ih) fun vs => hcall f vs hp
  | unary op e p ih =>
    cases he with
    | unary he hp =>
      rw [Expr.eval, Expr.eval]
      exact Run.bind_related hR (ih he) fun v => Run.ofExcept_related hR (op.apply_alike v he hp)
  | arithmetic op es p ih =>
    cases he with
    | arithmetic hes hp =>
      rw [Expr.eval, Expr.eval]
      exact evalArithmetic_related hR op hes ih _
  | logical op es p ih =>
    cases he with
    | logical hes hp =>
      rw [Expr.eval, Expr.eval]
      exact evalLogical_related hR op hes ih
  | comparison op left right p ihleft ihright =>
    cases he with
    | comparison hleft hright hp =>
      rw [Expr.eval, Expr.eval]
      refine Run.bind_related hR (ihleft hleft) fun v => ?_
      refine Run.bind_related hR (ihright hright) fun w => ?_
      exact Run.ofExcept_related hR (op.apply_alike v w hp)

/-- Arguments that are alike are evaluated in related runs. -/
theorem arguments_related {es es' : List Expr} (hes : List.Forall₂ (Expr.Alike P) es es') :
    R Eq (evalAll call vars es) (evalAll call' vars es') :=
  evalAll_related hR hes fun _ _ _ he => Expr.eval_related hR hcall he

/-- Conditions that are alike are tested in related runs. -/
theorem Expr.test_related {e e' : Expr} (he : e.Alike P e') :
    R Eq (e.test call vars) (e'.test call' vars) := by
  unfold Expr.test
  refine Run.bind_related hR (Expr.eval_related hR hcall he) fun v => ?_
  split
  · exact hR.value rfl
  · exact hR.fail (.conditionNotBoolean he.position)

/-! ### Statements -/

/-- Declarations that are alike are executed in related runs. -/
theorem declareVariable_related (name : String) (type : DeclaredType)
    {initial initial' : Option Expr} (hinitial : Option.Rel (Expr.Alike P) initial initial')
    {p p' : Position} (hp : P p p') {f f' : Frame} (hf : f.Alike f') :
    R Frame.Alike (declareVariable call name type initial p f)
      (declareVariable call' name type initial' p' f') := by
  unfold declareVariable
  rw [hf.contains_eq, hf.bindings_eq]
  split
  · exact hR.fail (.alreadyExists hp)
  · cases hinitial with
    | none => exact hR.value (hf.set name _)
    | some he =>
      refine Run.bind_related hR (Expr.eval_related hR hcall he) fun v => ?_
      refine Run.bind_related hR (Run.ofExcept_related hR
        (v.stored_alike type .declaration name hp)) fun w => ?_
      exact hR.value (hf.set name w)

/-- Assignments that are alike are executed in related runs. -/
theorem assignVariable_related (name : String) {e e' : Expr} (he : e.Alike P e')
    {p p' : Position} (hp : P p p') {f f' : Frame} (hf : f.Alike f') :
    R Frame.Alike (assignVariable call name e p f) (assignVariable call' name e' p' f') := by
  unfold assignVariable
  rw [hf.get?_eq, hf.bindings_eq]
  cases f.get? name with
  | none => exact hR.fail (.undefinedVariable hp)
  | some old =>
    refine Run.bind_related hR (Expr.eval_related hR hcall he) fun v => ?_
    split
    · exact hR.value (hf.set name v)
    · exact hR.fail (.typeMismatch hp)

omit hcall in
/-- What follows a round of a loop is related, if going on is. -/
theorem nextRound_related {again again' : Frame → Run RuntimeError (Frame × Signal)}
    (h : ∀ f f', f.Alike f' → R EndAlike (again f) (again' f')) {result result' : Frame × Signal}
    (hresult : EndAlike result result') :
    R EndAlike (nextRound again result) (nextRound again' result') := by
  obtain @⟨f, f', signal, hf⟩ := hresult
  cases signal with
  | through | continuing => exact h f f' hf
  | breaking | returning v => exact hR.value (.mk hf)

omit hcall in
/-- Loops are executed in related runs, if their tests and bodies are, and
if the second may make the rounds of the first. -/
theorem rounds_related {test test' : Frame → Run RuntimeError Bool}
    {body body' : Frame → Run RuntimeError (Frame × Signal)}
    (htest : ∀ f f', f.Alike f' → R Eq (test f) (test' f'))
    (hbody : ∀ f f', f.Alike f' → R EndAlike (body f) (body' f')) {n m : Nat}
    (hnm : Run.Rounds R n m) {f f' : Frame} (hf : f.Alike f') :
    R EndAlike (rounds test body n f) (rounds test' body' m f') := by
  -- Two loops go on alike if the rounds behind the next one do.
  have hstep : ∀ n m, (∀ f f', f.Alike f' →
      R EndAlike (rounds test body n f) (rounds test' body' m f')) →
      ∀ f f', f.Alike f' →
        R EndAlike (rounds test body (n + 1) f) (rounds test' body' (m + 1) f') := by
    intro n m h f f' hf
    rw [rounds_succ, rounds_succ]
    refine Run.bind_related hR (htest f f' hf) fun b => ?_
    split
    · exact hR.bind (hbody f f' hf) fun _ _ => nextRound_related hR h
    · exact hR.value (.mk hf)
  have hsame : ∀ n f f', f.Alike f' →
      R EndAlike (rounds test body n f) (rounds test' body' n f') := by
    intro n
    induction n with
    | zero => intro f f' _; exact hR.stuck
    | succ n ih => exact hstep n n ih
  cases hnm with
  | same => exact hsame n f f' hf
  | more hle hstuck =>
    induction n generalizing m f f' with
    | zero =>
      -- The first loop is stuck, and the second related to the same loop with as many rounds.
      exact hstuck (hsame m f f' hf)
    | succ n ih =>
      obtain ⟨m, rfl⟩ : ∃ k, m = k + 1 := ⟨m - 1, by omega⟩
      exact hstep n m (fun f f' hf => ih hf (by omega)) f f' hf

omit hcall in
/-- Statements in a row are executed in related runs, if each one is. -/
theorem execAll_related {fuel fuel' : Nat} {ss ss' : List Stmt}
    (hss : List.Forall₂ (Stmt.Alike P) ss ss')
    (h : ∀ s ∈ ss, ∀ {s'}, s.Alike P s' → ∀ {f f'}, f.Alike f' →
      R EndAlike (s.exec call fuel f) (s'.exec call' fuel' f'))
    {f f' : Frame} (hf : f.Alike f') :
    R EndAlike (execAll call fuel ss f) (execAll call' fuel' ss' f') := by
  induction hss generalizing f f' with
  | nil => exact hR.value (.mk hf)
  | @cons s s' ss ss' hs _ ih =>
    rw [execAll, execAll]
    refine hR.bind (h s (by simp) hs hf) ?_
    rintro _ _ @⟨g, g', signal, hg⟩
    cases signal with
    | through => exact ih (fun s hs => h s (by simp [hs])) hg
    | breaking | continuing | returning v => exact hR.value (.mk hg)

/-- Two executions of statements that are alike are related if the calls
in them are. -/
theorem Stmt.exec_related {fuel fuel' : Nat} (hfuel : Run.Rounds R fuel fuel') {s s' : Stmt}
    (hs : s.Alike P s') {f f' : Frame} (hf : f.Alike f') :
    R EndAlike (s.exec call fuel f) (s'.exec call' fuel' f') := by
  induction s using Stmt.induction generalizing s' f f' with
  | declare name type initial p =>
    cases hs with
    | declare hinitial hp =>
      rw [Stmt.exec, Stmt.exec]
      refine hR.bind (declareVariable_related hR hcall name type hinitial hp hf) fun g g' hg => ?_
      exact hR.value (.mk hg)
  | assign name e p =>
    cases hs with
    | assign he hp =>
      rw [Stmt.exec, Stmt.exec]
      refine hR.bind (assignVariable_related hR hcall name he hp hf) fun g g' hg => ?_
      exact hR.value (.mk hg)
  | ifStmt c thenBody elseBody p ihthen ihelse =>
    cases hs with
    | ifStmt hc hthen helse hp =>
      -- A condition sees the variables only, and these are the same in both frames.
      rw [Stmt.exec, Stmt.exec, hf.bindings_eq]
      refine Run.bind_related hR (Expr.test_related hR hcall hc) fun b => ?_
      split
      · exact ihthen hthen hf
      · cases helse with
        | none => exact hR.value (.mk hf)
        | some hbody => exact ihelse _ rfl hbody hf
  | whileStmt c body p ih =>
    cases hs with
    | whileStmt hc hbody hp =>
      rw [Stmt.exec, Stmt.exec]
      refine rounds_related hR (fun g g' hg => ?_) (fun g g' hg => ih hbody hg) hfuel hf
      rw [hg.bindings_eq]
      exact Expr.test_related hR hcall hc
  | returnStmt value p =>
    cases hs with
    | returnStmt hvalue hp =>
      cases hvalue with
      | none => exact hR.value (.mk hf)
      | some he =>
        rw [Stmt.exec, Stmt.exec, hf.bindings_eq]
        refine Run.bind_related hR (Expr.eval_related hR hcall he) fun v => ?_
        exact hR.value (.mk hf)
  | breakStmt p | continueStmt p =>
    cases hs with
    | _ hp => exact hR.value (.mk hf)
  | call function args p =>
    cases hs with
    | call hargs hp =>
      rw [Stmt.exec, Stmt.exec, hf.bindings_eq]
      refine Run.bind_related hR (arguments_related hR hcall hargs) fun vs => ?_
      refine Run.bind_related hR (hcall function vs hp) fun _ => ?_
      exact hR.value (.mk hf)
  | block body p ih =>
    cases hs with
    | block hbody hp =>
      rw [Stmt.exec, Stmt.exec]
      exact execAll_related hR hbody ih hf

/-- The same for the body of a function. -/
theorem body_related {fuel fuel' : Nat} (hfuel : Run.Rounds R fuel fuel') {ss ss' : List Stmt}
    (hss : List.Forall₂ (Stmt.Alike P) ss ss') {f f' : Frame} (hf : f.Alike f') :
    R EndAlike (execAll call fuel ss f) (execAll call' fuel' ss' f') :=
  execAll_related hR hss (fun _ _ _ hs _ _ => Stmt.exec_related hR hcall hfuel hs) hf

end

/-! ### Calls -/

/-- What two names stand for: the same builtin function, or functions that
are the same but for their places. -/
inductive Callable.Alike (P : Position → Position → Prop) : Callable → Callable → Prop
  | builtin {b : Builtin} : Alike P (.builtin b) (.builtin b)
  | declared {f f' : FunctionDecl} : f.Alike P f' → Alike P (.declared f) (.declared f')

/-- Functions that are alike are entered with frames that are alike. -/
theorem FunctionDecl.Alike.frame {P : Position → Position → Prop} {f f' : FunctionDecl}
    (h : f.Alike P f') (args : List Value) (n m : Nat) :
    (f.frame args n).Alike (f'.frame args m) := by
  have hfold : ∀ {xs xs' : List Parameter}, List.Forall₂ (Parameter.Alike P) xs xs' →
      ∀ (args : List Value) (g g' : Frame), g.Alike g' →
      ((xs.zip args).foldl (fun frame b => frame.set b.1.name b.2) g).Alike
        ((xs'.zip args).foldl (fun frame b => frame.set b.1.name b.2) g') := by
    intro xs xs' hxs
    induction hxs with
    | nil => intro args g g' hg; exact hg
    | cons hx _ ih =>
      intro args g g' hg
      cases args with
      | nil => exact hg
      | cons v args =>
        simp only [List.zip_cons_cons, List.foldl_cons, hx.name_eq]
        exact ih args _ _ (hg.set _ v)
  exact hfold h.parameters args _ _ ⟨h.name_eq.symm, rfl⟩

/-- `main` is no builtin function. -/
theorem Program.resolve?_main (program : Program) :
    program.resolve? "main" = (program.function? "main").map .declared := by
  have hname : Builtin.ofName? "main" = none := by decide
  rw [resolve?, hname]

namespace Scope

/-- The second scope has a function for each function of the first, alike
but for its places, and its frames have `more` frames to spend. -/
structure Mirrors (P : Position → Position → Prop) (R : RunRelation) (more : Nat)
    (s s' : Scope) : Prop where
  rounds : Run.Rounds R s.fuel s'.fuel
  resolve : ∀ {name c}, s.program.resolve? name = some c →
    ∃ c', s'.program.resolve? name = some c' ∧ c.Alike P c'
  builtin : ∀ (b : Builtin) args {p p'}, P p p' → R Eq (b.call args p) (b.call args p')
  /-- What the second does is related to the error that there is no such
  function. -/
  undefined : ∀ {name p p'} remaining args, s.program.resolve? name = none → P p p' →
    R Eq (Run.fail (.undefinedFunction name p)) (s'.call remaining name args p')
  /-- What the second does is related to the error of a used up budget. -/
  exceeded : ∀ {remaining name args p f}, remaining ≤ 1 →
    s.program.resolve? name = some (.declared f) → args.length = f.parameters.length →
    R Eq (Run.fail (.callDepthExceeded f.name s.callDepth)) (s'.call (remaining + more) name args p)

variable {P : Position → Position → Prop} {R : RunRelation} {more : Nat} {s s' : Scope}

section

variable (hR : Run.Congruence P R)
include hR

/-- Two calls are related, the second with more frames to spend. -/
theorem call_related (h : s.Mirrors P R more s') (remaining : Nat) (name : String)
    (args : List Value) {p p' : Position} (hp : P p p') :
    R Eq (s.call remaining name args p) (s'.call (remaining + more) name args p') := by
  induction remaining using Nat.strongRecOn generalizing name args p p' with
  | ind remaining ih =>
    cases hname : s.program.resolve? name with
    | none =>
      rw [call_of_none hname]
      exact h.undefined _ args hname hp
    | some callable =>
      obtain ⟨callable', hname', halike⟩ := h.resolve hname
      cases halike with
      | @builtin b =>
        rw [call_of_builtin hname, call_of_builtin hname']
        exact h.builtin b args hp
      | @declared f f' hf =>
        have hlength : f.parameters.length = f'.parameters.length := hf.parameters.length_eq
        by_cases hargs : args.length = f.parameters.length
        · by_cases hremaining : remaining ≤ 1
          · rw [call_of_le_one hname hargs hremaining]
            exact h.exceeded hremaining hname hargs
          · obtain ⟨budget, rfl⟩ : ∃ budget, remaining = budget + 2 := ⟨remaining - 2, by omega⟩
            -- The body spends one frame in both runs, so the second is still `more` ahead.
            have hmore : budget + 2 + more = budget + more + 2 := by omega
            have hcall := ih (budget + 1) (by omega)
            rw [show budget + 1 + more = budget + more + 1 by omega] at hcall
            rw [hmore, call_of_declared hname hargs, call_of_declared hname' (hlength ▸ hargs),
              ← hf.name_eq, ← hf.result_eq]
            have hbody := body_related hR (fun name args p p' hp => hcall name args hp) h.rounds
              hf.body (hf.frame args (budget + 1) (budget + more + 1))
            refine hR.bind hbody ?_
            rintro _ _ @⟨g, g', signal, -⟩
            exact Run.ofExcept_related hR (signal.result.stored_alike f.result .result f.name hp)
        · rw [call_of_length_ne hname hargs, call_of_length_ne hname' (hlength ▸ hargs),
            ← hf.name_eq, ← hlength]
          exact hR.fail (.argumentCountMismatch hp)

/-- The same for whole programs. -/
theorem run_related (h : s.Mirrors P R more s') (hmore : s'.callDepth = s.callDepth + more)
    (hclash : Option.Rel (FunctionDecl.Alike P) s.program.clash? s'.program.clash?)
    (hmain : s.program.function? "main" = none → s'.program.clash? = none →
      R Eq (Run.fail .noMainFunction) s'.run) :
    R Eq s.run s'.run := by
  have hcall := call_related hR h s.callDepth
  rw [← hmore] at hcall
  generalize hs : s.program.clash? = clash at hclash
  generalize hs' : s'.program.clash? = clash' at hclash hmain
  -- Either both programs define a builtin function again, or neither does.
  cases hclash with
  | some hf =>
    rw [run, run, hs, hs']
    dsimp only
    rw [hf.name_eq]
    exact hR.fail (.alreadyExists hf.position)
  | none =>
    cases hfunction : s.program.function? "main" with
    | none =>
      have hrun : s.run = Run.fail .noMainFunction := by rw [run, hs, hfunction]
      rw [hrun]
      exact hmain hfunction rfl
    | some f =>
      have hresolve : s.program.resolve? "main" = some (.declared f) := by
        rw [Program.resolve?_main, hfunction, Option.map_some]
      obtain ⟨c', hresolve', halike⟩ := h.resolve hresolve
      cases halike with
      | @declared _ f' hf =>
        have hfunction' : s'.program.function? "main" = some f' := by
          rw [Program.resolve?_main, Option.map_eq_some_iff] at hresolve'
          obtain ⟨g, hg, heq⟩ := hresolve'
          cases heq
          exact hg
        rw [run, run, hs, hs', hfunction, hfunction']
        -- Both have a `main`, and its bodies are alike.
        have hframe : (Frame.enter "main" s.callDepth).Alike (.enter "main" s'.callDepth) :=
          ⟨rfl, rfl⟩
        have hbody := body_related hR (fun name args p p' hp => hcall name args hp) h.rounds
          hf.body hframe
        refine hR.bind hbody ?_
        rintro _ _ @⟨g, g', signal, -⟩
        exact hR.value rfl

end

/-- A scope with the same program and more frames to spend. -/
theorem mirrors_of_program_eq (hR : Run.Congruence Eq R) (hprogram : s'.program = s.program)
    (hrounds : Run.Rounds R s.fuel s'.fuel)
    (hbuiltin : ∀ (b : Builtin) args p, R Eq (b.call args p) (b.call args p))
    (hexceeded : ∀ {remaining name args p f}, remaining ≤ 1 →
      s.program.resolve? name = some (.declared f) → args.length = f.parameters.length →
      R Eq (Run.fail (.callDepthExceeded f.name s.callDepth))
        (s'.call (remaining + more) name args p)) :
    s.Mirrors Eq R more s' where
  rounds := hrounds
  resolve := by
    intro name c hname
    refine ⟨c, hprogram ▸ hname, ?_⟩
    cases c with
    | builtin b => exact .builtin
    | declared f => exact .declared (.refl (fun _ => rfl) f)
  builtin := by
    rintro b args p _ rfl
    exact hbuiltin b args p
  undefined := by
    rintro name p _ remaining args hname rfl
    rw [call_of_none (hprogram ▸ hname)]
    exact hR.fail (.undefinedFunction rfl)
  exceeded := hexceeded

/-- Two runs of the same program are related, the second with more frames
to spend. -/
theorem run_related_of_program_eq (hR : Run.Congruence Eq R) (h : s.Mirrors Eq R more s')
    (hprogram : s'.program = s.program) (hmore : s'.callDepth = s.callDepth + more) :
    R Eq s.run s'.run := by
  refine run_related hR h hmore ?_ ?_
  · rw [hprogram]
    exact optionRel_self fun f _ => FunctionDecl.Alike.refl (fun _ => rfl) f
  · intro hmain hclash
    have hrun : s'.run = Run.fail .noMainFunction := by rw [run, hclash, hprogram, hmain]
    rw [hrun]
    exact hR.fail .noMainFunction

end Scope

/-! ### More rounds -/

/-- Where the first run ends, the second ends in the same way. -/
def Run.EndsAs : RunRelation := fun _ _ V r r' => ∀ t,
  match r t with
  | .ok a t₁ => ∃ a', r' t = .ok a' t₁ ∧ V a a'
  | .error e t₁ => r' t = .error e t₁
  | .unfinished => True

/-- Ending in the same way is kept by all the pieces of a run. -/
theorem Run.endsAs_congruence : Run.Congruence Eq Run.EndsAs where
  value := fun h _ => ⟨_, rfl, h⟩
  fail := by
    intro α α' V e e' he t
    rw [he.eq fun _ _ => id]
    exact rfl
  stuck := fun _ => trivial
  bind := by
    intro α α' β β' V W r r' next next' hr hnext t
    have hr := hr t
    rw [Run.bind_apply, Run.bind_apply]
    cases hrt : r t with
    | unfinished => trivial
    | error e t₁ =>
      rw [hrt] at hr
      dsimp only at hr ⊢
      rw [hr]
    | ok a t₁ =>
      rw [hrt] at hr
      obtain ⟨a', hr', ha⟩ := hr
      rw [hr']
      exact hnext a a' ha t₁

/-- A run ends as it does. -/
theorem Run.endsAs_refl {α : Type} (r : Run RuntimeError α) : Run.EndsAs Eq r r := by
  intro t
  cases r t with
  | ok a t₁ => exact ⟨a, rfl, rfl⟩
  | error e t₁ => exact rfl
  | unfinished => trivial

/-- The run ends with the outcome, once its loops are given enough
rounds. -/
def Ends {ε α : Type} (run : Nat → Run ε α) (t : Terminal) (outcome : Outcome ε α) : Prop :=
  outcome ≠ .unfinished ∧ ∃ fuel, run fuel t = outcome

/-- If the run ends within its rounds, it ends in the same way with more
of them. -/
def Settles {ε α : Type} (run : Nat → Run ε α) : Prop :=
  ∀ fuel fuel' t, fuel ≤ fuel' → run fuel t ≠ .unfinished → run fuel' t = run fuel t

/-- A run that settles ends in at most one way. -/
theorem Ends.unique {ε α : Type} {run : Nat → Run ε α} (hsettles : Settles run) {t : Terminal}
    {outcome outcome' : Outcome ε α} (h : Ends run t outcome) (h' : Ends run t outcome') :
    outcome' = outcome := by
  obtain ⟨hne, fuel, rfl⟩ := h
  obtain ⟨hne', fuel', rfl⟩ := h'
  rcases Nat.le_total fuel fuel' with hle | hle
  · exact hsettles fuel fuel' t hle hne
  · exact (hsettles fuel' fuel t hle hne').symm

/-- A run that settles and ends with an outcome ends with this one only. -/
theorem Ends.iff_eq {ε α : Type} {run : Nat → Run ε α} (hsettles : Settles run) {t : Terminal}
    {outcome : Outcome ε α} (h : Ends run t outcome) (outcome' : Outcome ε α) :
    Ends run t outcome' ↔ outcome' = outcome := by
  constructor
  · exact h.unique hsettles
  · rintro rfl
    exact h

/-- The run of a program settles. -/
theorem Program.settles_run (program : Program) (limits : Limits) :
    Settles (program.run limits) := by
  intro fuel fuel' t hfuel h
  have hrelated : Run.EndsAs Eq (Scope.run ⟨program, limits.callDepth, fuel⟩)
      (Scope.run ⟨program, limits.callDepth, fuel'⟩) := by
    have hcallDepth : limits.callDepth = limits.callDepth + 0 := rfl
    refine Scope.run_related_of_program_eq Run.endsAs_congruence
      (Scope.mirrors_of_program_eq Run.endsAs_congruence rfl (.more hfuel fun _ _ => trivial)
        (fun b args p => Run.endsAs_refl _) ?_) rfl hcallDepth
    -- Both runs have the same budget, so both use it up here.
    intro remaining name args p f hremaining hname hargs
    rw [Nat.add_zero, Scope.call_of_le_one (s := ⟨program, limits.callDepth, fuel'⟩) hname hargs
      hremaining]
    exact Run.endsAs_refl _
  have hrelated := hrelated t
  unfold Program.run at h ⊢
  cases hrun : Scope.run ⟨program, limits.callDepth, fuel⟩ t with
  | unfinished => exact absurd hrun h
  | error e t₁ =>
    rw [hrun] at hrelated
    exact hrelated
  | ok v t₁ =>
    rw [hrun] at hrelated
    obtain ⟨v', hrun', rfl⟩ := hrelated
    exact hrun'

end ScalarScript
