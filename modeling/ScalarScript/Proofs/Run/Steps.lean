import ScalarScript.Proofs.Declarations
import ScalarScript.Proofs.Run.Machine

/-!
# `ScalarScript.Proofs.Run.Steps`: what one step can do

A step looks at the top of the stack only. `State.Works Q k r n c` says
what it leaves there: the state `c` is on top of the stack `k`, in a frame
with the budget `r`, and all that it has put on top of `k` belongs to that
frame. There is one lemma for each kind of state, and the proofs about
runs use these and never look into the steps again.

Two things are followed along. The statements that are still to come are
parts of those that were there before, so a property `Q` of statements
that holds of all parts of a statement is never lost. And if `Q` holds of
no loop, the syntax that is still to come has the size `n` at most: every
evaluation takes one node away, and nothing but a loop brings a node back.

`Stack.Fits` is the same for the whole stack, down to the bottom. It holds
at the start of a run (`Scope.start_sound`) and every step keeps it
(`Scope.step_sound`), so it holds in every state (`Scope.reaches_sound`).
-/

set_option autoImplicit false

namespace ScalarScript

/-! ### The size of syntax -/

mutual

/-- The number of nodes of an expression. -/
def Expr.size : Expr → Nat
  | .int .. | .float .. | .string .. | .name .. => 1
  | .call _ args _ => sizeOfExprs args + 1
  | .unary _ e _ => e.size + 1
  | .arithmetic _ es _ | .logical _ es _ => sizeOfExprs es + 1
  | .comparison _ left right _ => left.size + right.size + 1

/-- The number of nodes of several expressions. -/
def sizeOfExprs : List Expr → Nat
  | [] => 0
  | e :: es => e.size + sizeOfExprs es

end

mutual

/-- The number of nodes of a statement. -/
def Stmt.size : Stmt → Nat
  | .declare _ _ none _ | .returnStmt none _ | .breakStmt _ | .continueStmt _ => 1
  | .declare _ _ (some e) _ | .assign _ e _ | .returnStmt (some e) _ => e.size + 1
  | .ifStmt c thenBody elseBody _ => c.size + thenBody.size + sizeOfOptional elseBody + 1
  | .whileStmt c body _ => c.size + body.size + 1
  | .call _ args _ => sizeOfExprs args + 1
  | .block body _ => sizeOfStmts body + 1

/-- The number of nodes of a statement that may be left out. -/
def sizeOfOptional : Option Stmt → Nat
  | none => 0
  | some s => s.size

/-- The number of nodes of several statements. -/
def sizeOfStmts : List Stmt → Nat
  | [] => 0
  | s :: ss => s.size + sizeOfStmts ss

end

namespace Pending

/-- The number of nodes that an item has yet to evaluate or to execute. -/
def size : {a b : Awaited} → Pending a b → Nat
  | _, _, .argument _ _ behind _ | _, _, .chain _ _ _ behind | _, _, .logic _ _ behind =>
    sizeOfExprs behind
  | _, _, .leftSide _ right _ => right.size
  | _, _, .branch _ thenBody elseBody => thenBody.size + sizeOfOptional elseBody
  | _, _, .test c body _ _ | _, _, .loop c body _ _ => c.size + body.size
  | _, _, .sequel behind => sizeOfStmts behind
  | _, _, .operand .. | _, _, .rightSide .. | _, _, .declare .. | _, _, .assign .. | _, _, .result
  | _, _, .discard | _, _, .caller .. => 0

/-- The statements that an item has yet to execute. -/
def stmts : {a b : Awaited} → Pending a b → List Stmt
  | _, _, .branch _ thenBody elseBody => thenBody :: elseBody.toList
  | _, _, .test c body p _ | _, _, .loop c body p _ => [.whileStmt c body p]
  | _, _, .sequel behind => behind
  | _, _, _ => []

/-- The frame of the caller, if the item is the body of a function. -/
def caller? : {a b : Awaited} → Pending a b → Option Frame
  | _, _, .caller f _ _ => some f
  | _, _, _ => none

end Pending

/-- The frames below, the outermost first. -/
def Stack.callers : {a : Awaited} → Stack a → List Frame
  | _, .bottom => []
  | _, .push item k => k.callers ++ item.caller?.toList

/-! ### Plain outcomes -/

/-- An outcome that no limit is the cause of: a value, or an error that
has a place in the program. -/
inductive Outcome.Plain {α : Type} : Outcome RuntimeError α → Prop
  | ok {a : α} {t : Terminal} : Plain (.ok a t)
  | error {e : RuntimeError} {t : Terminal} : e.position?.isSome → Plain (.error e t)

section

variable (v w : Value) (e : Expr) (p : Position) (t : Terminal)

/-- A unary operator ends plainly. -/
theorem UnaryOp.apply_plain (op : UnaryOp) : (Run.ofExcept (op.apply v e p) t).Plain := by
  unfold UnaryOp.apply
  split
  · split
    · exact .ok
    · exact .error rfl
  · exact .ok
  · exact .ok
  · split
    · exact .error rfl
    · exact .ok
  · split
    · exact .error rfl
    · exact .ok
  · exact .error rfl

/-- Arithmetic ends plainly. -/
theorem ArithmeticOp.combine_plain (op : ArithmeticOp) :
    (Run.ofExcept (op.combine v w e) t).Plain := by
  unfold ArithmeticOp.combine
  split
  · split
    · exact .ok
    · exact .error rfl
  · split
    · exact .ok
    · exact .error rfl

/-- A comparison ends plainly. -/
theorem ComparisonOp.apply_plain (op : ComparisonOp) :
    (Run.ofExcept (op.apply v w p) t).Plain := by
  unfold ComparisonOp.apply
  split
  · exact .ok
  · exact .ok
  · split
    · exact .ok
    · exact .ok
    · exact .error rfl

/-- Storing a value ends plainly. -/
theorem Value.stored_plain (type : DeclaredType) (destination : Destination) (name : String) :
    (Run.ofExcept (v.stored type destination name p) t).Plain := by
  unfold Value.stored
  split
  · exact .ok
  · exact .error rfl

/-- A conversion ends plainly. -/
theorem Builtin.converted_plain (target : DeclaredType) (o : Option Value) :
    (Builtin.converted target v p o t).Plain := by
  cases o with
  | some w => exact .ok
  | none => exact .error rfl

/-- Looking for the greatest or the least value ends plainly. -/
theorem Builtin.found_plain (b : Builtin) (r : Except OperandTypes Value) :
    (b.found p r t).Plain := by
  cases r with
  | ok v => exact .ok
  | error types => exact .error rfl

/-- A builtin function ends plainly. -/
theorem Builtin.call_plain (b : Builtin) (args : List Value) : (b.call args p t).Plain := by
  unfold Builtin.call
  split
  · exact .ok
  · unfold Builtin.readLine
    split
    · exact .ok
    · exact .error rfl
  · exact Builtin.converted_plain _ p t .int _
  · exact Builtin.converted_plain _ p t .float _
  · exact Builtin.converted_plain _ p t .string _
  · exact Builtin.found_plain p t .findMax _
  · exact Builtin.found_plain p t .findMin _
  · exact .error rfl

end

/-! ### On top of a stack -/

/-- A property of statements that holds of no loop. -/
def NoLoop (Q : Stmt → Prop) : Prop :=
  ∀ c body p, ¬ Q (.whileStmt c body p)

/-- `k.Above Q k' n`: the stack `k'` is `k` with items of one frame on top
of it. Their statements have the property `Q`, and there are `n` nodes in
them. -/
inductive Stack.Above (Q : Stmt → Prop) {b : Awaited} (k : Stack b) :
    {a : Awaited} → Stack a → Nat → Prop
  | same : Above Q k k 0
  | push {a c : Awaited} {item : Pending a c} {k' : Stack c} {n : Nat} :
      item.caller? = none → (∀ s ∈ item.stmts, Q s) → Above Q k k' n →
      Above Q k (.push item k') (item.size + n)

/-- `c.At Q f k n`: the state `c` is in the frame `f` and on top of the
stack `k`, and `n` nodes of syntax are next. A statement that is next has
the property `Q`. -/
inductive State.At (Q : Stmt → Prop) :
    {a : Awaited} → State → Frame → Stack a → Nat → Prop
  | eval {e : Expr} {f : Frame} {k : Stack .value} {t : Terminal} : At Q (.eval e f k t) f k e.size
  | call {name : String} {args : List Value} {p : Position} {f : Frame} {k : Stack .value}
      {t : Terminal} : At Q (.call name args p f k t) f k 0
  | give {v : Value} {f : Frame} {k : Stack .value} {t : Terminal} : At Q (.give v f k t) f k 0
  | exec {s : Stmt} {f : Frame} {k : Stack .signal} {t : Terminal} :
      Q s → At Q (.exec s f k t) f k s.size
  | signal {signal : Signal} {f : Frame} {k : Stack .signal} {t : Terminal} :
      At Q (.signal signal f k t) f k 0

/-- The state works on top of the stack `k`, in a frame with the budget
`r`. If there are no loops, `n` nodes are left above `k` at most, and no
run ends for want of rounds. -/
inductive State.Works (Q : Stmt → Prop) {b : Awaited} (k : Stack b) (r n : Nat) : State → Prop
  | ended {outcome : Outcome RuntimeError Value} : outcome.Plain → Works Q k r n (.ended outcome)
  | unfinished : ¬ NoLoop Q → Works Q k r n (.ended .unfinished)
  | active {c : State} {f : Frame} {a : Awaited} {k' : Stack a} {i j : Nat} :
      c.At Q f k' i → f.remaining = r → k.Above Q k' j → (NoLoop Q → i + j ≤ n) → Works Q k r n c

/-- What is on top of a stack that is on top of another is on top of the
other, and the nodes add up. -/
theorem Stack.Above.trans {Q : Stmt → Prop} {a b c : Awaited} {k : Stack a} {k' : Stack b}
    {k'' : Stack c} {i j : Nat} (h : k.Above Q k' i) (h' : k'.Above Q k'' j) :
    k.Above Q k'' (j + i) := by
  induction h' with
  | same =>
    rw [Nat.zero_add]
    exact h
  | push hcaller hstmts _ ih =>
    rw [Nat.add_assoc]
    exact .push hcaller hstmts ih

namespace State

variable {Q : Stmt → Prop} {b : Awaited} {k : Stack b} {r n : Nat} {c : State}

/-- What works on top of a stack works on top of what that stack is on top
of. -/
theorem Works.below {a : Awaited} {k' : Stack a} {j m : Nat} (h : c.Works Q k' r n)
    (hk : k.Above Q k' j) (hm : NoLoop Q → n + j ≤ m) : c.Works Q k r m := by
  cases h with
  | ended hplain => exact .ended hplain
  | unfinished hloop => exact .unfinished hloop
  | active hat hr habove hn =>
    refine .active hat hr (hk.trans habove) fun hno => ?_
    have := hn hno
    have := hm hno
    omega

/-- What works after a plain outcome works. -/
theorem Works.after {α : Type} {outcome : Outcome RuntimeError α} {next : α → Terminal → State}
    (hplain : outcome.Plain) (h : ∀ a t, (next a t).Works Q k r n) :
    (State.after outcome next).Works Q k r n := by
  cases hplain with
  | ok => exact h _ _
  | error he => exact .ended (.error he)

/-- What works after a test works, whether there was a condition or not. -/
theorem Works.tested {e : Expr} {v : Value} {t : Terminal} {next : Bool → State}
    (h : ∀ b, (next b).Works Q k r n) : (State.tested e v t next).Works Q k r n := by
  unfold State.tested
  split
  · exact h _
  · exact .ended (.error rfl)

section

variable {f : Frame} {t : Terminal}

/-- A value is given to the stack itself. -/
theorem give_works {k : Stack .value} {v : Value} : (State.give v f k t).Works Q k f.remaining n :=
  .active .give rfl .same fun _ => Nat.zero_le n

/-- A signal is given to the stack itself. -/
theorem signal_works {k : Stack .signal} {signal : Signal} (hf : f.remaining = r) :
    (State.signal signal f k t).Works Q k r n :=
  .active .signal hf .same fun _ => Nat.zero_le n

/-- The evaluation of an expression starts, with one item above the
stack. -/
theorem eval_works {e : Expr} {item : Pending .value b} (hcaller : item.caller? = none)
    (hstmts : ∀ s ∈ item.stmts, Q s) (hsize : NoLoop Q → e.size + item.size ≤ n) :
    (State.eval e f (.push item k) t).Works Q k f.remaining n :=
  .active .eval rfl (.push hcaller hstmts .same) hsize

/-- The execution of a statement starts, on the stack itself. -/
theorem exec_works {s : Stmt} {k : Stack .signal} (hs : Q s) (hsize : s.size ≤ n) :
    (State.exec s f k t).Works Q k f.remaining n :=
  .active (.exec hs) rfl .same fun _ => hsize

/-- Passing arguments works within the nodes of the arguments. -/
theorem pass_works (function : String) (before : List Value) (p : Position) (k : Stack .value)
    (es : List Expr) :
    (State.pass function before p f k t es).Works Q k f.remaining (sizeOfExprs es) := by
  cases es with
  | nil => exact .active .call rfl .same fun _ => Nat.zero_le _
  | cons e es => exact eval_works rfl (by simp [Pending.stmts]) fun _ => Nat.le_refl _

/-- Combining operands works within their nodes. -/
theorem combine_works (op : ArithmeticOp) (total : Value) (k : Stack .value) (es : List Expr) :
    (State.combine op total f k t es).Works Q k f.remaining (sizeOfExprs es) := by
  cases es with
  | nil => exact give_works
  | cons e es => exact eval_works rfl (by simp [Pending.stmts]) fun _ => Nat.le_refl _

/-- Connecting operands works within their nodes. -/
theorem connect_works (op : LogicalOp) (k : Stack .value) (es : List Expr) :
    (State.connect op f k t es).Works Q k f.remaining (sizeOfExprs es) := by
  cases es with
  | nil => exact give_works
  | cons e es => exact eval_works rfl (by simp [Pending.stmts]) fun _ => Nat.le_refl _

/-- Statements in a row work within their nodes. -/
theorem execAll_works (k : Stack .signal) {ss : List Stmt} (hss : ∀ s ∈ ss, Q s) :
    (State.execAll f k t ss).Works Q k f.remaining (sizeOfStmts ss) := by
  cases ss with
  | nil => exact signal_works rfl
  | cons s ss =>
    refine .active (.exec (hss s (by simp))) rfl (.push rfl ?_ .same) fun _ => Nat.le_refl _
    exact fun s hs => hss s (List.mem_cons_of_mem _ hs)

/-- A branch that may be left out works within its nodes. -/
theorem execOptional_works (k : Stack .signal) {o : Option Stmt} (ho : ∀ s ∈ o, Q s) :
    (State.execOptional f k t o).Works Q k f.remaining (sizeOfOptional o) := by
  cases o with
  | none => exact signal_works rfl
  | some s => exact exec_works (ho s rfl) (Nat.le_refl _)

/-- A round of a loop. Here the syntax may grow again. -/
theorem round_works {e : Expr} {body : Stmt} {p : Position} (hloop : Q (.whileStmt e body p))
    (k : Stack .signal) (rounds : Nat) :
    (State.round e body p f k t rounds).Works Q k f.remaining n := by
  have hno : ¬ NoLoop Q := fun hno => hno e body p hloop
  cases rounds with
  | zero => exact .unfinished hno
  | succ m =>
    exact eval_works rfl (by simpa [Pending.stmts] using hloop) fun h => absurd h hno

end

end State

/-! ### The steps -/

section

variable {Q : Stmt → Prop} {f : Frame} {t : Terminal}

/-- The first step of an evaluation takes the node of the expression
away. -/
theorem Expr.step_works (e : Expr) (k : Stack .value) :
    (e.step f k t).Works Q k f.remaining (e.size - 1) := by
  cases e with
  | int n p | float x p | string s p => exact State.give_works
  | name s p =>
    rw [Expr.step]
    split
    · exact State.give_works
    · exact .ended (.error rfl)
  | call function args p => exact State.pass_works function [] p k args
  | unary op e p => exact State.eval_works rfl (by simp [Pending.stmts]) fun _ => Nat.le_refl _
  | arithmetic op es p => exact State.combine_works op _ k es
  | logical op es p => exact State.connect_works op k es
  | comparison op left right p =>
    exact State.eval_works rfl (by simp [Pending.stmts]) fun _ => Nat.le_refl _

variable (hQ : ∀ {s b : Stmt}, s.Within b → Q b → Q s)
include hQ

/-- The first step of an execution takes the node of the statement
away. -/
theorem Stmt.step_works {s : Stmt} (hs : Q s) (fuel : Nat) (k : Stack .signal) :
    (s.step fuel f k t).Works Q k f.remaining (s.size - 1) := by
  cases s with
  | declare name type initial p =>
    rw [Stmt.step.eq_def]
    dsimp only
    split
    · exact .ended (.error rfl)
    · cases initial with
      | none => exact State.signal_works (f.remaining_set name _)
      | some e => exact State.eval_works rfl (by simp [Pending.stmts]) fun _ => Nat.le_refl _
  | assign name e p =>
    rw [Stmt.step]
    split
    · exact .ended (.error rfl)
    · exact State.eval_works rfl (by simp [Pending.stmts]) fun _ => Nat.le_refl _
  | ifStmt c thenBody elseBody p =>
    refine State.eval_works rfl ?_ fun _ => ?_
    · intro s hs'
      rcases List.mem_cons.mp hs' with rfl | hs'
      · exact hQ (.thenBody .self) hs
      · rw [Option.mem_toList] at hs'
        subst hs'
        exact hQ (.elseBody .self) hs
    · simp only [Stmt.size, Pending.size]
      omega
  -- Here alone the condition and the body may come back, round after round.
  | whileStmt c body p => exact State.round_works hs k fuel
  | returnStmt value p =>
    cases value with
    | none => exact State.signal_works rfl
    | some e => exact State.eval_works rfl (by simp [Pending.stmts]) fun _ => Nat.le_refl _
  | breakStmt p | continueStmt p => exact State.signal_works rfl
  | call function args p =>
    -- The item that drops the value has no nodes of its own.
    have hdiscard : k.Above Q (.push .discard k) 0 := .push rfl (by simp [Pending.stmts]) .same
    exact (State.pass_works function [] p (.push .discard k) args).below hdiscard
      fun _ => Nat.le_refl _
  | block body p => exact State.execAll_works k fun s hs' => hQ (.block hs' .self) hs

/-- A value comes to an item, which had its nodes counted before. -/
theorem Pending.onValue_works {b : Awaited} {item : Pending .value b}
    (hstmts : ∀ s ∈ item.stmts, Q s) (v : Value) (k : Stack b) :
    (item.onValue v f t k).Works Q k f.remaining item.size := by
  cases item with
  | argument function before behind p => exact State.pass_works function _ p k behind
  | operand op e p => exact .after (op.apply_plain v e p t) fun w t => State.give_works
  | chain op total e behind =>
    exact .after (op.combine_plain total v e t) fun total t => State.combine_works op total k behind
  | logic op e behind =>
    rw [Pending.onValue]
    split
    · exact .ended (.error rfl)
    · split
      · exact State.give_works
      · exact State.connect_works op k behind
  | leftSide op right p =>
    exact State.eval_works rfl (by simp [Pending.stmts]) fun _ => Nat.le_refl _
  | rightSide op left p => exact .after (op.apply_plain left v p t) fun w t => State.give_works
  | declare name type p =>
    exact .after (v.stored_plain p t type .declaration name) fun w t =>
      State.signal_works (f.remaining_set name w)
  | assign name old p =>
    rw [Pending.onValue]
    split
    · exact State.signal_works (f.remaining_set name v)
    · exact .ended (.error rfl)
  | branch c thenBody elseBody =>
    refine .tested fun b => ?_
    cases b with
    | true => exact State.exec_works (hstmts thenBody (by simp [Pending.stmts])) (Nat.le_add_right ..)
    | false =>
      refine (State.execOptional_works k fun s hs => hstmts s ?_).below .same fun _ => ?_
      · simpa [Pending.stmts] using .inr hs
      · exact Nat.le_add_left ..
  | test c body p n =>
    have hloop : Q (.whileStmt c body p) := hstmts _ (by simp [Pending.stmts])
    refine .tested fun b => ?_
    cases b with
    | true =>
      -- The body comes on top of its own loop, which counts for nothing without loops.
      refine .active (.exec (hQ (.whileBody .self) hloop)) rfl (.push rfl hstmts .same) fun hno => ?_
      exact absurd hloop (hno c body p)
    | false => exact State.signal_works rfl
  | result | discard => exact State.signal_works rfl

omit hQ in
/-- A signal comes to an item of its own frame. -/
theorem Pending.onSignal_works {b : Awaited} {item : Pending .signal b}
    (hcaller : item.caller? = none) (hstmts : ∀ s ∈ item.stmts, Q s) (signal : Signal)
    (k : Stack b) : (item.onSignal signal f t k).Works Q k f.remaining item.size := by
  cases item with
  | sequel behind =>
    cases signal with
    | through => exact State.execAll_works k hstmts
    | breaking | continuing | returning v => exact State.signal_works rfl
  | loop c body p n =>
    cases signal with
    | through | continuing => exact State.round_works (hstmts _ (by simp [Pending.stmts])) k n
    | breaking | returning v => exact State.signal_works rfl
  | caller g callee p => cases hcaller

omit hQ in
/-- A signal comes to the caller, which goes on in its own frame. -/
theorem Pending.onSignal_caller_works (g : Frame) (callee : FunctionDecl) (p : Position)
    (signal : Signal) (k : Stack .value) :
    ((Pending.caller g callee p).onSignal signal f t k).Works Q k g.remaining 0 :=
  .after (signal.result.stored_plain p t callee.result .result callee.name) fun _ _ =>
    State.give_works

end

/-! ### The whole stack -/

/-- `k.Fits Q limit r`: below a frame with the budget `r` the stack has a
frame for each unit of the limit that is used up. Each of them has one
unit more than the frame that it called. -/
inductive Stack.Fits (Q : Stmt → Prop) (limit : Nat) : {a : Awaited} → Stack a → Nat → Prop
  | bottom : Fits Q limit .bottom limit
  | push {a b : Awaited} {item : Pending a b} {k : Stack b} {r : Nat} :
      item.caller? = none → (∀ s ∈ item.stmts, Q s) → Fits Q limit k r →
      Fits Q limit (.push item k) r
  | caller {f : Frame} {callee : FunctionDecl} {p : Position} {k : Stack .value} {r : Nat} :
      f.childBudget? = some r → Fits Q limit k f.remaining →
      Fits Q limit (.push (.caller f callee p) k) r

/-- The state is in a frame that fits the stack, and all statements that
are still to come have the property `Q`. -/
inductive State.Sound (Q : Stmt → Prop) (limit : Nat) : State → Prop
  | ended {outcome : Outcome RuntimeError Value} : Sound Q limit (.ended outcome)
  | active {c : State} {f : Frame} {a : Awaited} {k : Stack a} {n : Nat} :
      c.At Q f k n → k.Fits Q limit f.remaining → Sound Q limit c

/-- A value or a signal was just found. -/
def State.isAnswer : State → Bool
  | .give .. | .signal .. => true
  | _ => false

/-- What a step of the state `c` can do, which is in the frame `f` and on
top of a stack, with `n` nodes next. -/
inductive Scope.Move (s : Scope) (Q : Stmt → Prop) (c : State) (f : Frame) :
    {a : Awaited} → Stack a → Nat → State → Prop
  /-- One node is taken apart, or a builtin function is called. -/
  | work {a : Awaited} {k : Stack a} {n : Nat} {c' : State} :
      c'.Works Q k f.remaining (n - 1) → Move s Q c f k n c'
  /-- An item of the same frame goes on. -/
  | resume {a b : Awaited} {item : Pending a b} {k : Stack b} {n : Nat} {c' : State} :
      c.isAnswer → item.caller? = none → c'.Works Q k f.remaining item.size →
      Move s Q c f (.push item k) n c'
  /-- A function returns. -/
  | leave {g : Frame} {callee : FunctionDecl} {p : Position} {k : Stack .value} {n : Nat}
      {c' : State} :
      c.isAnswer → c'.Works Q k g.remaining 0 → Move s Q c f (.push (.caller g callee p) k) n c'
  /-- A function is called. -/
  | enter {callee : FunctionDecl} {p : Position} {k : Stack .value} {n budget : Nat} {c' : State} :
      f.childBudget? = some budget →
      c'.Works Q (.push (.caller f callee p) k) budget (sizeOfStmts callee.body) →
      Move s Q c f k n c'
  /-- A function cannot be called, as the budget is used up. -/
  | exceed {name : String} {args : List Value} {p : Position} {k : Stack .value} {t : Terminal}
      {g : FunctionDecl} {n : Nat} :
      c = .call name args p f k t → s.program.resolve? name = some (.declared g) →
      args.length = g.parameters.length → f.childBudget? = none →
      Move s Q c f k n (.ended (.error (.callDepthExceeded g.name s.callDepth) t))
  /-- `main` returns. -/
  | finish {n : Nat} {v : Value} {t : Terminal} :
      c.isAnswer → Move s Q c f .bottom n (.ended (.ok v t))

namespace Stack.Fits

variable {Q : Stmt → Prop} {limit r : Nat} {a b : Awaited}

/-- Items of one frame on top leave the budgets as they are. -/
theorem above {k : Stack a} {k' : Stack b} {n : Nat} (h : k.Fits Q limit r)
    (habove : k.Above Q k' n) : k'.Fits Q limit r := by
  induction habove with
  | same => exact h
  | push hcaller hstmts _ ih => exact .push hcaller hstmts ih

/-- The item on top of a stack that fits has statements with the
property. -/
theorem stmts {item : Pending a b} {k : Stack b} (h : (Stack.push item k).Fits Q limit r) :
    ∀ s ∈ item.stmts, Q s := by
  cases h with
  | push _ hstmts _ => exact hstmts
  | caller _ _ => simp [Pending.stmts]

/-- Without an item of the same frame the budgets are the same. -/
theorem of_push {item : Pending a b} {k : Stack b} (h : (Stack.push item k).Fits Q limit r)
    (hcaller : item.caller? = none) : k.Fits Q limit r := by
  cases h with
  | push _ _ h => exact h
  | caller _ _ => cases hcaller

/-- Without the frame that was called, the caller is the current frame. -/
theorem of_caller {f : Frame} {callee : FunctionDecl} {p : Position} {k : Stack .value}
    (h : (Stack.push (.caller f callee p) k).Fits Q limit r) : k.Fits Q limit f.remaining := by
  cases h with
  | push hcaller _ _ => cases hcaller
  | caller _ h => exact h

/-- The frames below use up the rest of the limit. -/
theorem remaining_add_length {k : Stack a} (h : k.Fits Q limit r) :
    r + k.callers.length = limit := by
  induction h with
  | bottom => rfl
  | push hcaller _ _ ih => simpa [Stack.callers, hcaller] using ih
  | @caller f _ _ _ r hbudget _ ih =>
    -- A call takes one unit of the budget and adds one frame.
    have := (f.childBudget?_eq_some_iff r).mp hbudget
    simp only [Stack.callers, Pending.caller?, Option.toList_some, List.length_append,
      List.length_singleton]
    omega

end Stack.Fits

/-- A state that works on top of a stack that fits is sound. -/
theorem State.Works.sound {Q : Stmt → Prop} {limit r n : Nat} {b : Awaited} {k : Stack b}
    {c : State} (h : c.Works Q k r n) (hk : k.Fits Q limit r) : c.Sound Q limit := by
  cases h with
  | ended _ => exact .ended
  | unfinished _ => exact .ended
  | active hat hr habove _ =>
    subst hr
    exact .active hat (hk.above habove)

/-- A state that has ended has ended plainly, or for want of rounds. -/
theorem State.Works.of_ended {Q : Stmt → Prop} {r n : Nat} {b : Awaited} {k : Stack b}
    {outcome : Outcome RuntimeError Value} (h : (State.ended outcome).Works Q k r n) :
    outcome.Plain ∨ outcome = .unfinished ∧ ¬ NoLoop Q := by
  cases h with
  | ended hplain => exact .inl hplain
  | unfinished hloop => exact .inr ⟨rfl, hloop⟩
  | active hat _ _ _ => cases hat

/-- A name that stands for a declared function is its name. -/
theorem Program.mem_of_resolve? {program : Program} {name : String} {g : FunctionDecl}
    (h : program.resolve? name = some (.declared g)) : g ∈ program.functions ∧ g.name = name := by
  unfold Program.resolve? at h
  split at h
  · cases h
  · obtain ⟨g', hfind, hg⟩ := Option.map_eq_some_iff.mp h
    cases hg
    exact (program.function?_eq_some_iff name g).mp hfind

namespace Scope

variable {s : Scope} {Q : Stmt → Prop} (hQ : ∀ {s b : Stmt}, s.Within b → Q b → Q s)
  (hprogram : ∀ g ∈ s.program.functions, ∀ st ∈ g.body, Q st)

include hprogram in
/-- A call of a function. -/
theorem enter_move (name : String) (args : List Value) (p : Position) (f : Frame)
    (k : Stack .value) (t : Terminal) :
    s.Move Q (.call name args p f k t) f k 0 (s.enter name args p f k t) := by
  unfold enter
  split
  · exact .work (.ended (.error rfl))
  · rename_i b _
    exact .work (.after (b.call_plain p t args) fun v t => State.give_works)
  · rename_i g hname
    by_cases hargs : args.length = g.parameters.length
    · rw [if_neg (not_not_intro hargs)]
      split
      · exact .exceed rfl hname hargs ‹_›
      · rename_i budget hbudget
        have hbody := hprogram g (Program.mem_of_resolve? hname).1
        have hworks := State.execAll_works (f := g.frame args budget) (t := t)
          (.push (.caller f g p) k) hbody
        rw [g.remaining_frame] at hworks
        exact .enter hbudget hworks
    · rw [if_pos hargs]
      exact .work (.ended (.error rfl))

include hQ hprogram

/-- What a step does. All proofs about runs rest on these cases. -/
theorem step_move {limit : Nat} {c c' : State} {f : Frame} {a : Awaited} {k : Stack a} {n : Nat}
    (hat : c.At Q f k n) (hk : k.Fits Q limit f.remaining) (h : s.step c = some c') :
    s.Move Q c f k n c' := by
  cases hat with
  | eval =>
    cases h
    exact .work (Expr.step_works _ _)
  | call =>
    cases h
    exact enter_move hprogram _ _ _ _ _ _
  | exec hs =>
    cases h
    exact .work (Stmt.step_works hQ hs s.fuel _)
  | @give v _ k t =>
    cases k with
    | push item k =>
      cases h
      -- A body ends with a signal, so no caller waits for a value.
      have hcaller : item.caller? = none := by cases item <;> rfl
      exact .resume rfl hcaller (Pending.onValue_works hQ hk.stmts v k)
  | @signal signal _ k t =>
    -- The stack tells whether the signal ends the run, stays in its frame or leaves it.
    cases hk with
    | bottom =>
      cases h
      exact .finish rfl
    | push hcaller hstmts _ =>
      cases h
      exact .resume rfl hcaller (Pending.onSignal_works hcaller hstmts signal _)
    | caller _ _ =>
      cases h
      exact .leave rfl (Pending.onSignal_caller_works _ _ _ signal _)

/-- Every step keeps the stack sound. -/
theorem step_sound {limit : Nat} {c c' : State} (hc : c.Sound Q limit) (h : s.step c = some c') :
    c'.Sound Q limit := by
  cases hc with
  | ended => cases h
  | active hat hk =>
    cases step_move hQ hprogram hat hk h with
    | work hworks => exact hworks.sound hk
    | resume _ hcaller hworks => exact hworks.sound (hk.of_push hcaller)
    | leave _ hworks => exact hworks.sound hk.of_caller
    | enter hbudget hworks => exact hworks.sound (.caller hbudget hk)
    | exceed _ _ _ _ => exact .ended
    | finish _ => exact .ended

/-- Why a step ends the run. Only a call fails for the limit, and only a
loop runs out of rounds. -/
theorem step_ended {limit : Nat} {c : State} {outcome : Outcome RuntimeError Value}
    (hc : c.Sound Q limit) (h : s.step c = some (.ended outcome)) :
    outcome.Plain ∨ (outcome = .unfinished ∧ ¬ NoLoop Q) ∨
    ∃ name args p f k t g, c = .call name args p f k t ∧
      outcome = .error (.callDepthExceeded g.name s.callDepth) t ∧
      s.program.resolve? name = some (.declared g) ∧ args.length = g.parameters.length ∧
      f.childBudget? = none := by
  cases hc with
  | ended => cases h
  | active hat hk =>
    cases step_move hQ hprogram hat hk h with
    | work hworks => exact hworks.of_ended.imp_right .inl
    | resume _ _ hworks => exact hworks.of_ended.imp_right .inl
    | leave _ hworks => exact hworks.of_ended.imp_right .inl
    | enter _ hworks => exact hworks.of_ended.imp_right .inl
    | finish _ => exact .inl .ok
    | exceed hcall hname hargs hbudget =>
      exact .inr (.inr ⟨_, _, _, _, _, _, _, hcall, rfl, hname, hargs, hbudget⟩)

omit hQ hprogram in
/-- A run that ends at its start was refused. -/
theorem start_eq_ended {t : Terminal} {outcome : Outcome RuntimeError Value}
    (h : s.start t = .ended outcome) :
    outcome = .error .noMainFunction t ∨
    ∃ name p, outcome = .error (.alreadyExists .aFunction name p) t := by
  unfold start at h
  split at h
  · cases h
    exact .inr ⟨_, _, rfl⟩
  · split at h
    · cases h
      exact .inl rfl
    · -- The body of `main` starts with a statement or gives a signal at once.
      rename_i g _
      cases hbody : g.body with
      | nil => simp [hbody, State.execAll] at h
      | cons st ss => simp [hbody, State.execAll] at h

omit hQ in
/-- A run starts in a sound state. -/
theorem start_sound (t : Terminal) : (s.start t).Sound Q s.callDepth := by
  unfold start
  split
  · exact .ended
  · split
    · exact .ended
    · rename_i g hmain
      have hbody := hprogram g ((s.program.function?_eq_some_iff "main" g).mp hmain).1
      exact (State.execAll_works (f := .enter "main" s.callDepth) .bottom hbody).sound .bottom

/-- Every state of a run is sound. -/
theorem reaches_sound {t : Terminal} {c : State} (h : s.Reaches t c) : c.Sound Q s.callDepth := by
  induction h with
  | refl => exact start_sound hprogram t
  | tail _ hstep ih => exact step_sound hQ hprogram ih hstep

end Scope

end ScalarScript
