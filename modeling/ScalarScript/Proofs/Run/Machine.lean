import Mathlib.Logic.Relation
import ScalarScript.Proofs.Run.Outcome
import ScalarScript.Proofs.Tree

/-!
# `ScalarScript.Proofs.Run.Machine`: a run as a sequence of states

Evaluation is a recursion, so a run has an outcome but no states that
could be pointed at. This module takes the same run apart into steps. A
`State` is the point that a run has come to: an expression or a statement
that is next, a value or a signal that was just found, and below it the
`Stack` of all that is left to do with it.

A stack is a list of `Pending` items. Each waits for a value or for a
signal, and says so in its type, as does what lies below it; so no value
can come to an item that waits for a signal. A call of a function leaves
a `caller` item with the frame of its caller.

`Scope.step` is the next state. Loops are counted as in execution: each
has `Scope.fuel` rounds, and a run in which one of them needs more ends
as `unfinished`.

`Scope.start_leads` says that the steps make up the run: they lead from
the first state to the outcome of `Scope.run`. The proof follows
evaluation, for any stack below. As each state has one next state at
most, this is the only end (`Scope.reaches_ended_iff`).
-/

set_option autoImplicit false

namespace ScalarScript

/-- What an item of a stack waits for. -/
inductive Awaited where
  | value
  | signal

/-- What is left to do. An item of type `Pending a b` waits for an `a`,
and the item below it for a `b`. -/
inductive Pending : Awaited → Awaited → Type where
  /-- An argument of a call, with the values before it and the
  expressions behind it. -/
  | argument (function : String) (before : List Value) (behind : List Expr) (position : Position) :
      Pending .value .value
  | operand (op : UnaryOp) (e : Expr) (position : Position) : Pending .value .value
  /-- The operand `e` of an arithmetic chain that has come to a total. -/
  | chain (op : ArithmeticOp) (total : Value) (e : Expr) (behind : List Expr) :
      Pending .value .value
  /-- The operand `e` of a logical chain. -/
  | logic (op : LogicalOp) (e : Expr) (behind : List Expr) : Pending .value .value
  | leftSide (op : ComparisonOp) (right : Expr) (position : Position) : Pending .value .value
  | rightSide (op : ComparisonOp) (left : Value) (position : Position) : Pending .value .value
  | declare (name : String) (type : DeclaredType) (position : Position) : Pending .value .signal
  | assign (name : String) (old : Value) (position : Position) : Pending .value .signal
  | branch (condition : Expr) (thenBody : Stmt) (elseBody : Option Stmt) : Pending .value .signal
  /-- The condition of a loop that has so many rounds left behind this
  one. -/
  | test (condition : Expr) (body : Stmt) (position : Position) (rounds : Nat) :
      Pending .value .signal
  | result : Pending .value .signal
  /-- A call that is a statement. -/
  | discard : Pending .value .signal
  | sequel (behind : List Stmt) : Pending .signal .signal
  /-- The body of a loop that has so many rounds left behind this one. -/
  | loop (condition : Expr) (body : Stmt) (position : Position) (rounds : Nat) :
      Pending .signal .signal
  /-- The body of a function, called from a frame. -/
  | caller (frame : Frame) (callee : FunctionDecl) (position : Position) : Pending .signal .value

/-- What is left to do behind an `a`, the next of it on top. At the bottom
the signal of `main` ends the run. -/
inductive Stack : Awaited → Type where
  | bottom : Stack .signal
  | push {a b : Awaited} (item : Pending a b) (below : Stack b) : Stack a

/-- The point that a run has come to: what is next, the frame in which it
is, what is left to do, and the terminal. -/
inductive State where
  | eval (e : Expr) (frame : Frame) (stack : Stack .value) (terminal : Terminal)
  /-- The arguments of a call have values. -/
  | call (function : String) (arguments : List Value) (position : Position) (frame : Frame)
      (stack : Stack .value) (terminal : Terminal)
  /-- A value was found. -/
  | give (value : Value) (frame : Frame) (stack : Stack .value) (terminal : Terminal)
  | exec (s : Stmt) (frame : Frame) (stack : Stack .signal) (terminal : Terminal)
  /-- A statement ended. -/
  | signal (signal : Signal) (frame : Frame) (stack : Stack .signal) (terminal : Terminal)
  | ended (outcome : Outcome RuntimeError Value)

/-! ### Steps -/

namespace State

/-- Goes on with the value of a run, or ends as the run does. -/
def after {α : Type} (outcome : Outcome RuntimeError α) (next : α → Terminal → State) : State :=
  match outcome with
  | .ok a t => next a t
  | .error e t => .ended (.error e t)
  | .unfinished => .ended .unfinished

/-- Nothing is left to do behind the value of a whole run. -/
theorem after_ended (outcome : Outcome RuntimeError Value) :
    after outcome (fun v t => .ended (.ok v t)) = .ended outcome := by
  cases outcome <;> rfl

/-- Evaluates the arguments that are left, and calls the function behind
them. -/
def pass (function : String) (before : List Value) (p : Position) (f : Frame) (k : Stack .value)
    (t : Terminal) : List Expr → State
  | [] => .call function before p f k t
  | e :: es => .eval e f (.push (.argument function before es p) k) t

/-- Goes on with an arithmetic chain. -/
def combine (op : ArithmeticOp) (total : Value) (f : Frame) (k : Stack .value) (t : Terminal) :
    List Expr → State
  | [] => .give total f k t
  | e :: es => .eval e f (.push (.chain op total e es) k) t

/-- Goes on with a logical chain that is not yet decided. -/
def connect (op : LogicalOp) (f : Frame) (k : Stack .value) (t : Terminal) : List Expr → State
  | [] => .give (.bool !op.decisive) f k t
  | e :: es => .eval e f (.push (.logic op e es) k) t

/-- Executes statements in turn. -/
def execAll (f : Frame) (k : Stack .signal) (t : Terminal) : List Stmt → State
  | [] => .signal .through f k t
  | s :: ss => .exec s f (.push (.sequel ss) k) t

/-- Executes a statement that may be left out. -/
def execOptional (f : Frame) (k : Stack .signal) (t : Terminal) : Option Stmt → State
  | none => .signal .through f k t
  | some s => .exec s f k t

/-- Starts a round of a loop, if one is left. -/
def round (condition : Expr) (body : Stmt) (p : Position) (f : Frame) (k : Stack .signal)
    (t : Terminal) : Nat → State
  | 0 => .ended .unfinished
  | n + 1 => .eval condition f (.push (.test condition body p n) k) t

/-- A statement has ended, in a frame and with a signal. -/
def settled (k : Stack .signal) (result : Frame × Signal) (t : Terminal) : State :=
  .signal result.2 result.1 k t

/-- Goes on with the truth of a condition, which has to be a truth
value. -/
def tested (condition : Expr) (v : Value) (t : Terminal) (next : Bool → State) : State :=
  match v.toBool? with
  | some b => next b
  | none => .ended (.error (.conditionNotBoolean v.type condition.position) t)

end State

/-- The first step of an evaluation. -/
def Expr.step (f : Frame) (k : Stack .value) (t : Terminal) : Expr → State
  | .int n _ => .give (.int n) f k t
  | .float x _ => .give (.float x) f k t
  | .string s _ => .give (.string s) f k t
  | .name s p =>
    match f.get? s with
    | some v => .give v f k t
    | none => .ended (.error (.undefinedVariable s p) t)
  | .call function args p => .pass function [] p f k t args
  | .unary op e p => .eval e f (.push (.operand op e p) k) t
  | .arithmetic op es _ => .combine op (.int op.unit) f k t es
  | .logical op es _ => .connect op f k t es
  | .comparison op left right p => .eval left f (.push (.leftSide op right p) k) t

/-- The first step of an execution. -/
def Stmt.step (fuel : Nat) (f : Frame) (k : Stack .signal) (t : Terminal) : Stmt → State
  | .declare name type initial p =>
    if f.contains name then .ended (.error (.alreadyExists .aVariable name p) t)
    else match initial with
      | none => .signal .through (f.set name (.zero type)) k t
      | some e => .eval e f (.push (.declare name type p) k) t
  | .assign name e p =>
    match f.get? name with
    | none => .ended (.error (.undefinedVariable name p) t)
    | some old => .eval e f (.push (.assign name old p) k) t
  | .ifStmt c thenBody elseBody _ => .eval c f (.push (.branch c thenBody elseBody) k) t
  | .whileStmt c body p => .round c body p f k t fuel
  | .returnStmt none _ => .signal (.returning .nothing) f k t
  | .returnStmt (some e) _ => .eval e f (.push .result k) t
  | .breakStmt _ => .signal .breaking f k t
  | .continueStmt _ => .signal .continuing f k t
  | .call function args p => .pass function [] p f (.push .discard k) t args
  | .block body _ => .execAll f k t body

namespace Pending

/-- A value comes to the item that waits for it. -/
def onValue (v : Value) (f : Frame) (t : Terminal) :
    {b : Awaited} → Pending .value b → Stack b → State
  | _, .argument function before behind p, k => .pass function (before ++ [v]) p f k t behind
  | _, .operand op e p, k => .after (Run.ofExcept (op.apply v e p) t) fun w t => .give w f k t
  | _, .chain op total e behind, k =>
    .after (Run.ofExcept (op.combine total v e) t) fun total t => .combine op total f k t behind
  | _, .logic op e behind, k =>
    match v.toBool? with
    | none => .ended (.error (badOperand op.text v e) t)
    | some b => if b = op.decisive then .give (.bool b) f k t else .connect op f k t behind
  | _, .leftSide op right p, k => .eval right f (.push (.rightSide op v p) k) t
  | _, .rightSide op left p, k =>
    .after (Run.ofExcept (op.apply left v p) t) fun w t => .give w f k t
  | _, .declare name type p, k =>
    .after (Run.ofExcept (v.stored type .declaration name p) t) fun w t =>
      .signal .through (f.set name w) k t
  | _, .assign name old p, k =>
    if old.type = v.type then .signal .through (f.set name v) k t
    else .ended (.error (.typeMismatch .assignment name old.type v.type p) t)
  | _, .branch c thenBody elseBody, k => .tested c v t fun b =>
    if b then .exec thenBody f k t else .execOptional f k t elseBody
  | _, .test c body p n, k => .tested c v t fun b =>
    if b then .exec body f (.push (.loop c body p n) k) t else .signal .through f k t
  | _, .result, k => .signal (.returning v) f k t
  | _, .discard, k => .signal .through f k t

/-- A signal comes to the item that waits for it. -/
def onSignal (signal : Signal) (f : Frame) (t : Terminal) :
    {b : Awaited} → Pending .signal b → Stack b → State
  | _, .sequel behind, k =>
    match signal with
    | .through => .execAll f k t behind
    | signal => .signal signal f k t
  | _, .loop c body p n, k =>
    match signal with
    | .through | .continuing => .round c body p f k t n
    | .breaking => .signal .through f k t
    | .returning v => .signal (.returning v) f k t
  -- The frame of the body is given up, and the caller goes on in its own.
  | _, .caller g callee p, k =>
    .after (Run.ofExcept (signal.result.stored callee.result .result callee.name p) t) fun v t =>
      .give v g k t

end Pending

namespace Scope

/-- Calls a function from the current frame. The budget of that frame
decides whether there may be one more. -/
def enter (s : Scope) (name : String) (args : List Value) (p : Position) (f : Frame)
    (k : Stack .value) (t : Terminal) : State :=
  match s.program.resolve? name with
  | none => .ended (.error (.undefinedFunction name p) t)
  | some (.builtin b) => .after (b.call args p t) fun v t => .give v f k t
  | some (.declared g) =>
    if args.length ≠ g.parameters.length then
      .ended (.error (.argumentCountMismatch g.name (.exactly g.parameters.length) args.length p) t)
    else match f.childBudget? with
      | none => .ended (.error (.callDepthExceeded g.name s.callDepth) t)
      | some budget => .execAll (g.frame args budget) (.push (.caller f g p) k) t g.body

/-- The next state, unless the run has ended. -/
def step (s : Scope) : State → Option State
  | .eval e f k t => some (e.step f k t)
  | .call name args p f k t => some (s.enter name args p f k t)
  | .give v f (.push item k) t => some (item.onValue v f t k)
  | .exec st f k t => some (st.step s.fuel f k t)
  | .signal signal _ .bottom t => some (.ended (.ok (exitValue signal) t))
  | .signal signal f (.push item k) t => some (item.onSignal signal f t k)
  | .ended _ => none

/-- The first state of a run. -/
def start (s : Scope) (t : Terminal) : State :=
  match s.program.clash? with
  | some f => .ended (.error (.alreadyExists .aFunction f.name f.position) t)
  | none =>
    match s.program.function? "main" with
    | none => .ended (.error .noMainFunction t)
    | some f => .execAll (.enter "main" s.callDepth) .bottom t f.body

/-- Some steps lead from one state to another. -/
abbrev Leads (s : Scope) : State → State → Prop :=
  Relation.ReflTransGen fun c c' => s.step c = some c'

/-- A run that starts at the terminal comes to the state. -/
def Reaches (s : Scope) (t : Terminal) (c : State) : Prop :=
  s.Leads (s.start t) c

end Scope

/-! ### The budget of a frame -/

/-- Setting a variable leaves the budget as it was. -/
theorem Frame.remaining_set (f : Frame) (name : String) (v : Value) :
    (f.set name v).remaining = f.remaining := rfl

/-- A frame with a budget of one or less may call nothing. -/
theorem Frame.childBudget?_eq_none_iff (f : Frame) : f.childBudget? = none ↔ f.remaining ≤ 1 := by
  rw [Frame.childBudget?, ite_eq_right_iff]
  simp

/-- Any other frame may call with one unit less. -/
theorem Frame.childBudget?_eq_some_iff (f : Frame) (n : Nat) :
    f.childBudget? = some n ↔ f.remaining = n + 1 ∧ 0 < n := by
  unfold Frame.childBudget?
  split
  · rw [Option.some.injEq]
    omega
  · simp only [reduceCtorEq, false_iff]
    omega

/-- A function is entered with the budget that it is given. -/
theorem FunctionDecl.remaining_frame (g : FunctionDecl) (args : List Value) (n : Nat) :
    (g.frame args n).remaining = n := by
  have hfold : ∀ (bound : List (Parameter × Value)) (f : Frame),
      (bound.foldl (fun frame b => frame.set b.1.name b.2) f).remaining = f.remaining := by
    intro bound
    induction bound with
    | nil => intro f; rfl
    | cons b bound ih => intro f; exact ih _
  exact hfold _ _

/-- A declaration leaves the budget as it was. -/
theorem declareVariable_remaining {call : Caller} {name : String} {type : DeclaredType}
    {initial : Option Expr} {p : Position} {f f' : Frame} {t t' : Terminal}
    (h : declareVariable call name type initial p f t = .ok f' t') :
    f'.remaining = f.remaining := by
  unfold declareVariable at h
  split at h
  · simp at h
  · split at h
    · rw [Run.pure_eq_ok_iff] at h
      rw [h.1, Frame.remaining_set]
    · obtain ⟨v, t₁, -, h⟩ := (Run.bind_eq_ok_iff _ _ _ _ _).mp h
      obtain ⟨w, t₂, -, h⟩ := (Run.bind_eq_ok_iff _ _ _ _ _).mp h
      rw [Run.pure_eq_ok_iff] at h
      rw [h.1, Frame.remaining_set]

/-- An assignment leaves the budget as it was. -/
theorem assignVariable_remaining {call : Caller} {name : String} {e : Expr} {p : Position}
    {f f' : Frame} {t t' : Terminal} (h : assignVariable call name e p f t = .ok f' t') :
    f'.remaining = f.remaining := by
  unfold assignVariable at h
  cases hold : f.get? name with
  | none => simp [hold] at h
  | some old =>
    rw [hold] at h
    obtain ⟨v, t₁, -, h⟩ := (Run.bind_eq_ok_iff _ _ _ _ _).mp h
    split at h
    · rw [Run.pure_eq_ok_iff] at h
      rw [h.1, Frame.remaining_set]
    · simp at h

/-- A statement changes variables, and never the budget of its frame. -/
theorem Stmt.exec_remaining (call : Caller) (fuel : Nat) (s : Stmt) {f f' : Frame}
    {signal : Signal} {t t' : Terminal} (h : s.exec call fuel f t = .ok (f', signal) t') :
    f'.remaining = f.remaining := by
  -- Only a declaration and an assignment change the frame, and they change its variables. The rest
  -- is carried through by the parts.
  induction s using Stmt.induction generalizing f f' signal t t' with
  | declare name type initial p =>
    rw [Stmt.exec] at h
    obtain ⟨g, t₁, hdeclare, h⟩ := (Run.bind_eq_ok_iff _ _ _ _ _).mp h
    simp only [Run.pure_eq_ok_iff, Prod.mk.injEq] at h
    rw [h.1.1, declareVariable_remaining hdeclare]
  | assign name e p =>
    rw [Stmt.exec] at h
    obtain ⟨g, t₁, hassign, h⟩ := (Run.bind_eq_ok_iff _ _ _ _ _).mp h
    simp only [Run.pure_eq_ok_iff, Prod.mk.injEq] at h
    rw [h.1.1, assignVariable_remaining hassign]
  | ifStmt c thenBody elseBody p hthen helse =>
    rw [Stmt.exec] at h
    obtain ⟨b, t₁, -, h⟩ := (Run.bind_eq_ok_iff _ _ _ _ _).mp h
    cases b with
    | true => exact hthen h
    | false =>
      cases elseBody with
      | none => simp_all [execOptional]
      | some body => exact helse body rfl h
  | whileStmt c body p hbody =>
    rw [Stmt.exec] at h
    exact rounds_keeps (G := fun f f' => f'.remaining = f.remaining) (fun _ => rfl)
      (fun hg hh => hh.trans hg) hbody fuel h
  | returnStmt value p =>
    cases value with
    | none => simp_all [Stmt.exec]
    | some e =>
      rw [Stmt.exec] at h
      obtain ⟨v, t₁, -, h⟩ := (Run.bind_eq_ok_iff _ _ _ _ _).mp h
      simp_all
  | breakStmt p | continueStmt p => simp_all [Stmt.exec]
  | call function args p =>
    rw [Stmt.exec] at h
    obtain ⟨vs, t₁, -, h⟩ := (Run.bind_eq_ok_iff _ _ _ _ _).mp h
    obtain ⟨v, t₂, -, h⟩ := (Run.bind_eq_ok_iff _ _ _ _ _).mp h
    simp_all
  | block body p hbody =>
    rw [Stmt.exec] at h
    exact execAll_keeps (G := fun f f' => f'.remaining = f.remaining) (fun _ => rfl)
      (fun hg hh => hh.trans hg) hbody h

/-! ### The steps of a run lead to its outcome -/

namespace Scope

variable {s : Scope}

/-- One run after another: the steps of the first and then those of the
second. -/
theorem Leads.bind {α β : Type} {c : State} {r : Run RuntimeError α} {t : Terminal}
    {next : α → Run RuntimeError β} {go : α → Terminal → State} {go' : β → Terminal → State}
    (h : s.Leads c (.after (r t) go))
    (hnext : ∀ a t', r t = .ok a t' → s.Leads (go a t') (.after (next a t') go')) :
    s.Leads c (.after ((r >>= next) t) go') := by
  rw [Run.bind_apply]
  cases hr : r t with
  | ok a t' =>
    rw [hr] at h
    exact h.trans (hnext a t' hr)
  | error e t' =>
    rw [hr] at h
    exact h
  | unfinished =>
    rw [hr] at h
    exact h

section

variable {call : Caller} {f : Frame} {es : List Expr}
  (hes : ∀ e ∈ es, ∀ k t, s.Leads (.eval e f k t)
    (.after (e.eval call f.bindings t) fun v t => .give v f k t))
include hes

/-- Passing arguments leads to the call with their values, or to the error
of the first that fails. -/
theorem pass_leads (function : String) (before : List Value) (p : Position) (k : Stack .value)
    (t : Terminal) :
    s.Leads (.pass function before p f k t es)
      (.after (evalAll call f.bindings es t) fun vs t =>
        .call function (before ++ vs) p f k t) := by
  induction es generalizing before t with
  | nil =>
    show s.Leads (.call function before p f k t) (.call function (before ++ []) p f k t)
    rw [List.append_nil]
  | cons e es ih =>
    rw [evalAll]
    refine Leads.bind (hes e (by simp) _ t) fun v t₁ _ => ?_
    refine .head rfl (Leads.bind (ih (fun e he => hes e (by simp [he])) _ t₁) fun vs t₂ _ => ?_)
    rw [List.append_assoc]
    exact .refl

/-- Combining operands leads to the value of the chain. -/
theorem combine_leads (op : ArithmeticOp) (total : Value) (k : Stack .value) (t : Terminal) :
    s.Leads (.combine op total f k t es)
      (.after (evalArithmetic call f.bindings op total es t) fun v t => .give v f k t) := by
  induction es generalizing total t with
  | nil => exact .refl
  | cons e es ih =>
    rw [evalArithmetic]
    refine Leads.bind (hes e (by simp) _ t) fun v t₁ _ => ?_
    refine Leads.bind (.single rfl) fun total t₂ _ => ?_
    exact ih (fun e he => hes e (by simp [he])) total t₂

/-- Connecting operands leads to the value of the chain, as far as it is
evaluated. -/
theorem connect_leads (op : LogicalOp) (k : Stack .value) (t : Terminal) :
    s.Leads (.connect op f k t es)
      (.after (evalLogical call f.bindings op es t) fun v t => .give v f k t) := by
  induction es generalizing t with
  | nil => exact .refl
  | cons e es ih =>
    rw [evalLogical]
    refine Leads.bind (hes e (by simp) _ t) fun v t₁ _ => .head rfl ?_
    rw [Pending.onValue]
    cases v.toBool? with
    | none => exact .refl
    | some b =>
      dsimp only
      split
      · exact .refl
      · exact ih (fun e he => hes e (by simp [he])) t₁

end

/-- Calls from frames with the budget `r` take the steps of `Scope.call`. -/
def CallsLead (s : Scope) (r : Nat) : Prop :=
  ∀ name args p f k t, f.remaining = r → s.Leads (.call name args p f k t)
    (.after (s.call r name args p t) fun v t => .give v f k t)

section

variable {r : Nat} (hcall : s.CallsLead r)
include hcall

/-- Evaluating an expression leads to its value. The induction is on the
expression. -/
theorem eval_leads (e : Expr) {f : Frame} (hf : f.remaining = r) (k : Stack .value)
    (t : Terminal) :
    s.Leads (.eval e f k t)
      (.after (e.eval (s.call r) f.bindings t) fun v t => .give v f k t) := by
  induction e using Expr.induction generalizing k t with
  | int n p | float x p | string x p => exact .single rfl
  | name x p =>
    rw [Expr.eval]
    refine .head rfl ?_
    rw [Expr.step, Frame.get?]
    cases f.bindings.get? x with
    | some v => exact .refl
    | none => exact .refl
  | call function args p hargs =>
    rw [Expr.eval]
    refine .head rfl (Leads.bind (pass_leads hargs function [] p k t) fun vs t₁ _ => ?_)
    exact hcall function vs p f k t₁ hf
  | unary op e p he =>
    rw [Expr.eval]
    exact .head rfl (Leads.bind (he _ t) fun v t₁ _ => .single rfl)
  | arithmetic op es p hes =>
    rw [Expr.eval]
    exact .head rfl (combine_leads hes op _ k t)
  | logical op es p hes =>
    rw [Expr.eval]
    exact .head rfl (connect_leads hes op k t)
  | comparison op left right p hleft hright =>
    rw [Expr.eval]
    refine .head rfl (Leads.bind (hleft _ t) fun v t₁ _ => ?_)
    exact .head rfl (Leads.bind (hright _ t₁) fun w t₂ _ => .single rfl)

/-- The test of a condition, and then the way that its truth decides. -/
theorem test_leads (c : Expr) {f : Frame} (hf : f.remaining = r) {k : Stack .value}
    {t : Terminal} {next : Bool → Run RuntimeError (Frame × Signal)}
    {go : Bool → Terminal → State} {go' : Frame × Signal → Terminal → State}
    (hgive : ∀ v t, s.step (.give v f k t) = some (.tested c v t fun b => go b t))
    (hnext : ∀ b t', s.Leads (go b t') (.after (next b t') go')) :
    s.Leads (.eval c f k t) (.after ((c.test (s.call r) f.bindings >>= next) t) go') := by
  rw [Expr.test, bind_assoc]
  refine Leads.bind (eval_leads hcall c hf k t) fun v t₁ _ => .head (hgive v t₁) ?_
  rw [State.tested]
  cases v.toBool? with
  | some b => exact hnext b t₁
  | none => exact .refl

/-- The rounds of a loop lead to its end, if this holds for its body. The
induction is on the rounds that are left. -/
theorem round_leads (c : Expr) (body : Stmt) (p : Position)
    (hbody : ∀ {f : Frame}, f.remaining = r → ∀ k t, s.Leads (.exec body f k t)
      (.after (body.exec (s.call r) s.fuel f t) (.settled k)))
    (n : Nat) {f : Frame} (hf : f.remaining = r) (k : Stack .signal) (t : Terminal) :
    s.Leads (.round c body p f k t n)
      (.after (rounds (fun f => c.test (s.call r) f.bindings)
        (fun f => body.exec (s.call r) s.fuel f) n f t) (.settled k)) := by
  induction n generalizing f t with
  | zero => exact .refl
  | succ n ih =>
    rw [rounds_succ]
    refine test_leads hcall c hf (fun v t => rfl) fun b t₁ => ?_
    cases b with
    | false => exact .refl
    | true =>
      refine Leads.bind (hbody hf _ t₁) fun result t₂ hround => .head rfl ?_
      obtain ⟨g, signal⟩ := result
      -- The next round finds the budget that this one found.
      have hg : g.remaining = r := (body.exec_remaining _ _ hround).trans hf
      cases signal with
      | through | continuing => exact ih hg t₂
      | breaking | returning v => exact .refl

omit hcall in
/-- Executing statements in a row leads to their end, if this holds for
each. -/
theorem execAll_leads {ss : List Stmt}
    (hss : ∀ st ∈ ss, ∀ {f : Frame}, f.remaining = r → ∀ k t, s.Leads (.exec st f k t)
      (.after (st.exec (s.call r) s.fuel f t) (.settled k)))
    {f : Frame} (hf : f.remaining = r) (k : Stack .signal) (t : Terminal) :
    s.Leads (.execAll f k t ss)
      (.after (execAll (s.call r) s.fuel ss f t) (.settled k)) := by
  induction ss generalizing f t with
  | nil => exact .refl
  | cons st ss ih =>
    rw [execAll]
    refine Leads.bind (hss st (by simp) hf _ t) fun result t₁ hst => .head rfl ?_
    obtain ⟨g, signal⟩ := result
    have hg : g.remaining = r := (st.exec_remaining _ _ hst).trans hf
    cases signal with
    | through => exact ih (fun st hst => hss st (by simp [hst])) hg t₁
    | breaking | continuing | returning v => exact .refl

/-- Executing a statement leads to its end. The induction is on the
statement. -/
theorem exec_leads (st : Stmt) {f : Frame} (hf : f.remaining = r) (k : Stack .signal)
    (t : Terminal) :
    s.Leads (.exec st f k t)
      (.after (st.exec (s.call r) s.fuel f t) (.settled k)) := by
  induction st using Stmt.induction generalizing f k t with
  | declare name type initial p =>
    rw [Stmt.exec, declareVariable.eq_def]
    refine .head rfl ?_
    rw [Stmt.step.eq_def]
    dsimp only
    split
    · exact .refl
    -- The name is new: there may be a value to evaluate, and then it has to be stored.
    · cases initial with
      | none => exact .refl
      | some e =>
        rw [bind_assoc]
        refine Leads.bind (eval_leads hcall e hf _ t) fun v t₁ _ => .head rfl ?_
        rw [bind_assoc]
        exact Leads.bind .refl fun w t₂ _ => .refl
  | assign name e p =>
    rw [Stmt.exec, assignVariable]
    refine .head rfl ?_
    rw [Stmt.step]
    cases f.get? name with
    | none => exact .refl
    | some old =>
      dsimp only
      rw [bind_assoc]
      refine Leads.bind (eval_leads hcall e hf _ t) fun v t₁ _ => .head rfl ?_
      rw [Pending.onValue]
      split
      · exact .refl
      · exact .refl
  | ifStmt c thenBody elseBody p hthen helse =>
    rw [Stmt.exec]
    refine .head rfl (test_leads hcall c hf (fun v t => rfl) fun b t₁ => ?_)
    cases b with
    | true => exact hthen hf k t₁
    | false =>
      cases elseBody with
      | none => exact .refl
      | some body => exact helse body rfl hf k t₁
  | whileStmt c body p hbody =>
    rw [Stmt.exec]
    exact .head rfl (round_leads hcall c body p hbody s.fuel hf k t)
  | returnStmt value p =>
    cases value with
    | none => exact .single rfl
    | some e =>
      rw [Stmt.exec]
      exact .head rfl (Leads.bind (eval_leads hcall e hf _ t) fun v t₁ _ => .single rfl)
  | breakStmt p | continueStmt p => exact .single rfl
  | call function args p =>
    rw [Stmt.exec]
    -- A call passes its arguments, and the value that it gives is dropped.
    refine .head rfl (Leads.bind (pass_leads (fun e _ => eval_leads hcall e hf) function [] p _ t)
      fun vs t₁ _ => ?_)
    exact Leads.bind (hcall function vs p f _ t₁ hf) fun v t₂ _ => .single rfl
  | block body p hbody =>
    rw [Stmt.exec]
    exact .head rfl (execAll_leads hbody hf k t)

end

/-- The steps of a call. The budget of the caller's frame is what bounds
the recursion of `Scope.call`. -/
theorem callsLead (s : Scope) (r : Nat) : s.CallsLead r := by
  induction r using Nat.strongRecOn with
  | ind r ih =>
    intro name args p f k t hf
    refine .head rfl ?_
    rw [enter]
    cases hname : s.program.resolve? name with
    | none =>
      rw [call_of_none hname]
      exact .refl
    | some callable =>
      cases callable with
      | builtin b => rw [call_of_builtin hname]
      | declared g =>
        dsimp only
        by_cases hargs : args.length = g.parameters.length
        · rw [if_neg (not_not_intro hargs)]
          by_cases hr : r ≤ 1
          · rw [call_of_le_one hname hargs hr, f.childBudget?_eq_none_iff.mpr (by omega)]
            exact .refl
          · obtain ⟨budget, rfl⟩ : ∃ budget, r = budget + 2 := ⟨r - 2, by omega⟩
            have hchild : f.childBudget? = some (budget + 1) :=
              (f.childBudget?_eq_some_iff _).mpr (by omega)
            have hcall := ih (budget + 1) (by omega)
            rw [call_of_declared hname hargs, hchild]
            refine Leads.bind (execAll_leads (fun st _ _ => exec_leads hcall st)
              (g.remaining_frame args _) _ t) fun result t₁ _ => .single rfl
        · rw [if_pos hargs, call_of_length_ne hname hargs]
          exact .refl

/-- The steps of a run lead to its outcome. -/
theorem start_leads (s : Scope) (t : Terminal) : s.Leads (s.start t) (.ended (s.run t)) := by
  unfold start run
  cases s.program.clash? with
  | some f => exact .refl
  | none =>
    cases s.program.function? "main" with
    | none => exact .refl
    | some f =>
      have hcall := s.callsLead s.callDepth
      dsimp only
      rw [← State.after_ended]
      exact Leads.bind (execAll_leads (fun st _ _ => exec_leads hcall st) rfl _ t)
        fun result t₁ _ => .single rfl

/-- A run comes to one end, its outcome. -/
theorem reaches_ended_iff (s : Scope) (t : Terminal) (outcome : Outcome RuntimeError Value) :
    s.Reaches t (.ended outcome) ↔ outcome = s.run t := by
  have hunique : Relator.RightUnique fun c c' => s.step c = some c' := by
    intro c c' c'' h h'
    rw [h] at h'
    exact Option.some.inj h'
  -- Nothing comes behind an end.
  have hlast : ∀ {o c}, s.Leads (.ended o) c → c = .ended o := by
    intro o c h
    rcases h.cases_head with rfl | ⟨c', hstep, -⟩
    · rfl
    · cases hstep
  constructor
  · intro h
    rcases Relation.ReflTransGen.total_of_right_unique hunique h (s.start_leads t) with h | h
    · cases hlast h
      rfl
    · cases hlast h
      rfl
  · rintro rfl
    exact s.start_leads t

end Scope

end ScalarScript
