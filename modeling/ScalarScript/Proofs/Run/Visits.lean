import ScalarScript.Proofs.Run.Machine

/-!
# `ScalarScript.Proofs.Run.Visits`: what a run evaluates, and in which order

The states of a run say which expressions it evaluates. `Scope.Visits`
takes the steps from one state to another together with the evaluations
that are started on the way, each with its frame and its terminal.

An evaluation does not look at the stack below it before it has a value.
So a run over one stack and the same run over another take the same steps
as long as what is on top of the two stacks is the same
(`Scope.step_rebased`), and an evaluation starts the same evaluations
whatever its value is needed for: this is `Scope.eval_visits`.
-/

set_option autoImplicit false

namespace ScalarScript

/-- An evaluation that a run starts. -/
structure Visit where
  expr : Expr
  frame : Frame
  terminal : Terminal

/-- The evaluation that starts in a state, if one does. -/
def State.visits : State → List Visit
  | .eval e f _ t => [⟨e, f, t⟩]
  | _ => []

namespace Scope

/-- The steps from one state to another, and the evaluations that they
start. -/
inductive Visits (s : Scope) : State → List Visit → State → Prop
  | refl (c : State) : Visits s c [] c
  | step {c c' d : State} {vs : List Visit} :
      s.step c = some c' → Visits s c' vs d → Visits s c (c.visits ++ vs) d

variable {s : Scope} {c d : State} {vs ws : List Visit}

/-- The visits of two pieces of a run in a row are those of the first and
then those of the second. -/
theorem Visits.trans {b : State} (h : s.Visits c vs d) (h' : s.Visits d ws b) :
    s.Visits c (vs ++ ws) b := by
  induction h with
  | refl => exact h'
  | step hstep _ ih =>
    rw [List.append_assoc]
    exact .step hstep (ih h')

/-- A run that leads from one state to another visits some expressions on
its way. -/
theorem exists_visits (h : s.Leads c d) : ∃ vs, s.Visits c vs d := by
  induction h using Relation.ReflTransGen.head_induction_on with
  | refl => exact ⟨[], .refl _⟩
  | head hstep _ ih =>
    obtain ⟨vs, hvs⟩ := ih
    exact ⟨_, .step hstep hvs⟩

end Scope

/-! ### States over two stacks -/

/-- Two stacks with the same items on top, the first on `k` and the second
on `k'`. -/
inductive Stack.Rebased (k k' : Stack .value) : {a : Awaited} → Stack a → Stack a → Prop
  | base : Rebased k k' k k'
  | push {a b : Awaited} (item : Pending a b) {l l' : Stack b} :
      Rebased k k' l l' → Rebased k k' (.push item l) (.push item l')

/-- The same point of a run, over `k` in the first state and over `k'` in
the second. -/
inductive State.Rebased (k k' : Stack .value) : State → State → Prop
  | eval {l l' : Stack .value} (h : Stack.Rebased k k' l l') (e : Expr) (f : Frame) (t : Terminal) :
      Rebased k k' (.eval e f l t) (.eval e f l' t)
  | call {l l' : Stack .value} (h : Stack.Rebased k k' l l') (name : String) (args : List Value)
      (p : Position) (f : Frame) (t : Terminal) :
      Rebased k k' (.call name args p f l t) (.call name args p f l' t)
  | give {l l' : Stack .value} (h : Stack.Rebased k k' l l') (v : Value) (f : Frame)
      (t : Terminal) : Rebased k k' (.give v f l t) (.give v f l' t)
  | exec {l l' : Stack .signal} (h : Stack.Rebased k k' l l') (st : Stmt) (f : Frame)
      (t : Terminal) : Rebased k k' (.exec st f l t) (.exec st f l' t)
  | signal {l l' : Stack .signal} (h : Stack.Rebased k k' l l') (signal : Signal) (f : Frame)
      (t : Terminal) : Rebased k k' (.signal signal f l t) (.signal signal f l' t)
  | ended (outcome : Outcome RuntimeError Value) : Rebased k k' (.ended outcome) (.ended outcome)

section

variable {k k' : Stack .value}

namespace State

variable {l l' : Stack .value} (h : Stack.Rebased k k' l l')
include h

/-- Passing arguments over another stack is the same, over that stack. -/
theorem pass_rebased (function : String) (before : List Value) (p : Position) (f : Frame)
    (t : Terminal) (es : List Expr) :
    Rebased k k' (.pass function before p f l t es) (.pass function before p f l' t es) := by
  cases es with
  | nil => exact .call h ..
  | cons e es => exact .eval (.push _ h) ..

/-- Combining operands over another stack is the same, over that stack. -/
theorem combine_rebased (op : ArithmeticOp) (total : Value) (f : Frame) (t : Terminal)
    (es : List Expr) : Rebased k k' (.combine op total f l t es) (.combine op total f l' t es) := by
  cases es with
  | nil => exact .give h ..
  | cons e es => exact .eval (.push _ h) ..

/-- Connecting operands over another stack is the same, over that stack. -/
theorem connect_rebased (op : LogicalOp) (f : Frame) (t : Terminal) (es : List Expr) :
    Rebased k k' (.connect op f l t es) (.connect op f l' t es) := by
  cases es with
  | nil => exact .give h ..
  | cons e es => exact .eval (.push _ h) ..

omit h

/-- Going on after an outcome is the same over another stack, if the two
ways of going on are. -/
theorem after_rebased {α : Type} (outcome : Outcome RuntimeError α)
    {next next' : α → Terminal → State} (hnext : ∀ a t, Rebased k k' (next a t) (next' a t)) :
    Rebased k k' (.after outcome next) (.after outcome next') := by
  cases outcome with
  | ok a t => exact hnext a t
  | error e t => exact .ended _
  | unfinished => exact .ended _

/-- Going on after a test is the same over another stack, if the two ways
of going on are. -/
theorem tested_rebased (condition : Expr) (v : Value) (t : Terminal) {next next' : Bool → State}
    (hnext : ∀ b, Rebased k k' (next b) (next' b)) :
    Rebased k k' (.tested condition v t next) (.tested condition v t next') := by
  unfold tested
  cases v.toBool? with
  | some b => exact hnext b
  | none => exact .ended _

variable {m m' : Stack .signal} (hm : Stack.Rebased k k' m m')
include hm

/-- Statements in a row over another stack are the same, over that stack. -/
theorem execAll_rebased (f : Frame) (t : Terminal) (ss : List Stmt) :
    Rebased k k' (.execAll f m t ss) (.execAll f m' t ss) := by
  cases ss with
  | nil => exact .signal hm ..
  | cons s ss => exact .exec (.push _ hm) ..

/-- A branch that may be left out is the same over another stack. -/
theorem execOptional_rebased (f : Frame) (t : Terminal) (body : Option Stmt) :
    Rebased k k' (.execOptional f m t body) (.execOptional f m' t body) := by
  cases body with
  | none => exact .signal hm ..
  | some s => exact .exec hm ..

/-- A round of a loop is the same over another stack. -/
theorem round_rebased (condition : Expr) (body : Stmt) (p : Position) (f : Frame) (t : Terminal)
    (n : Nat) :
    Rebased k k' (.round condition body p f m t n) (.round condition body p f m' t n) := by
  cases n with
  | zero => exact .ended _
  | succ n => exact .eval (.push _ hm) ..

end State

/-- The step at an expression does not look at the stack. -/
theorem Expr.step_rebased {l l' : Stack .value} (h : Stack.Rebased k k' l l') (f : Frame)
    (t : Terminal) (e : Expr) : State.Rebased k k' (e.step f l t) (e.step f l' t) := by
  cases e with
  | int n p | float x p | string x p => exact .give h ..
  | name x p =>
    unfold step
    dsimp only
    cases f.get? x with
    | some v => exact .give h ..
    | none => exact .ended _
  | call function args p => exact State.pass_rebased h ..
  | unary op e p => exact .eval (.push _ h) ..
  | arithmetic op es p => exact State.combine_rebased h ..
  | logical op es p => exact State.connect_rebased h ..
  | comparison op left right p => exact .eval (.push _ h) ..

/-- The step at a statement does not look at the stack. -/
theorem Stmt.step_rebased {l l' : Stack .signal} (h : Stack.Rebased k k' l l') (fuel : Nat)
    (f : Frame) (t : Terminal) (st : Stmt) :
    State.Rebased k k' (st.step fuel f l t) (st.step fuel f l' t) := by
  cases st with
  | declare name type initial p =>
    rw [step.eq_def, step.eq_def]
    dsimp only
    split
    · exact .ended _
    · cases initial with
      | none => exact .signal h ..
      | some e => exact .eval (.push _ h) ..
  | assign name e p =>
    unfold step
    cases f.get? name with
    | none => exact .ended _
    | some old => exact .eval (.push _ h) ..
  | ifStmt c thenBody elseBody p => exact .eval (.push _ h) ..
  | whileStmt c body p => exact State.round_rebased h ..
  | returnStmt value p =>
    cases value with
    | none => exact .signal h ..
    | some e => exact .eval (.push _ h) ..
  | breakStmt p | continueStmt p => exact .signal h ..
  | call function args p => exact State.pass_rebased (.push _ h) ..
  | block body p => exact State.execAll_rebased h ..

/-- Going on with a value looks only at the item on top of the stack. -/
theorem Pending.onValue_rebased {b : Awaited} {l l' : Stack b} (h : Stack.Rebased k k' l l')
    (item : Pending .value b) (v : Value) (f : Frame) (t : Terminal) :
    State.Rebased k k' (item.onValue v f t l) (item.onValue v f t l') := by
  cases item with
  | argument function before behind p => exact State.pass_rebased h ..
  | operand op e p => exact State.after_rebased _ fun w t => .give h ..
  | chain op total e behind => exact State.after_rebased _ fun total t => State.combine_rebased h ..
  | logic op e behind =>
    unfold onValue
    dsimp only
    cases v.toBool? with
    | none => exact .ended _
    | some b =>
      dsimp only
      split
      · exact .give h ..
      · exact State.connect_rebased h ..
  | leftSide op right p => exact .eval (.push _ h) ..
  | rightSide op left p => exact State.after_rebased _ fun w t => .give h ..
  | declare name type p => exact State.after_rebased _ fun w t => .signal h ..
  | assign name old p =>
    unfold onValue
    dsimp only
    split
    · exact .signal h ..
    · exact .ended _
  | branch c thenBody elseBody =>
    refine State.tested_rebased c v t fun b => ?_
    cases b with
    | true => exact .exec h ..
    | false => exact State.execOptional_rebased h ..
  | test c body p n =>
    refine State.tested_rebased c v t fun b => ?_
    cases b with
    | true => exact .exec (.push _ h) ..
    | false => exact .signal h ..
  | result | discard => exact .signal h ..

/-- Going on with a signal looks only at the item on top of the stack. -/
theorem Pending.onSignal_rebased {b : Awaited} {l l' : Stack b} (h : Stack.Rebased k k' l l')
    (item : Pending .signal b) (signal : Signal) (f : Frame) (t : Terminal) :
    State.Rebased k k' (item.onSignal signal f t l) (item.onSignal signal f t l') := by
  cases item with
  | sequel behind =>
    cases signal with
    | through => exact State.execAll_rebased h ..
    | breaking | continuing | returning v => exact .signal h ..
  | loop c body p n =>
    cases signal with
    | through | continuing => exact State.round_rebased h ..
    | breaking | returning v => exact .signal h ..
  | caller g callee p => exact State.after_rebased _ fun v t => .give h ..

/-- Entering a function does not look at the stack. -/
theorem Scope.enter_rebased (s : Scope) {l l' : Stack .value} (h : Stack.Rebased k k' l l')
    (name : String) (args : List Value) (p : Position) (f : Frame) (t : Terminal) :
    State.Rebased k k' (s.enter name args p f l t) (s.enter name args p f l' t) := by
  unfold enter
  cases s.program.resolve? name with
  | none => exact .ended _
  | some callable =>
    cases callable with
    | builtin b => exact State.after_rebased _ fun v t => .give h ..
    | declared g =>
      dsimp only
      split
      · exact .ended _
      · cases f.childBudget? with
        | none => exact .ended _
        | some budget => exact State.execAll_rebased (.push _ h) ..

/-- A step over one stack is a step over the other, and starts the same
evaluation, unless the run has ended or a value has come to the stacks. -/
theorem Scope.step_rebased (s : Scope) {c c' : State} (h : c.Rebased k k' c') :
    (∃ outcome, c = .ended outcome) ∨
    (∃ v f t, c = .give v f k t ∧ c' = .give v f k' t) ∨
    ∃ d d', s.step c = some d ∧ s.step c' = some d' ∧ d.Rebased k k' d' ∧ c'.visits = c.visits := by
  cases h with
  | ended outcome => exact .inl ⟨outcome, rfl⟩
  | eval h e f t => exact .inr (.inr ⟨_, _, rfl, rfl, e.step_rebased h f t, rfl⟩)
  | call h name args p f t =>
    exact .inr (.inr ⟨_, _, rfl, rfl, s.enter_rebased h name args p f t, rfl⟩)
  | exec h st f t => exact .inr (.inr ⟨_, _, rfl, rfl, st.step_rebased h s.fuel f t, rfl⟩)
  | give h v f t =>
    cases h with
    | base => exact .inr (.inl ⟨v, f, t, rfl, rfl⟩)
    | push item h => exact .inr (.inr ⟨_, _, rfl, rfl, item.onValue_rebased h v f t, rfl⟩)
  | signal h signal f t =>
    -- A signal never waits on `k` itself, which waits for a value.
    cases h with
    | push item h => exact .inr (.inr ⟨_, _, rfl, rfl, item.onSignal_rebased h signal f t, rfl⟩)

end

/-! ### Evaluations over any stack -/

namespace Scope

variable {s : Scope}

/-- The stack of a run that ends with the value it waits for. -/
def lastStack : Stack .value := .push .result .bottom

/-- A signal at the bottom ends the run well. -/
theorem visits_bottom {signal : Signal} {f : Frame} {t : Terminal} {vs : List Visit} {d : State}
    (h : s.Visits (.signal signal f .bottom t) vs d) :
    d = .signal signal f .bottom t ∨ d = .ended (.ok (exitValue signal) t) := by
  cases h with
  | refl => exact .inl rfl
  | step hstep h =>
    cases hstep
    cases h with
    | refl => exact .inr rfl
    | step hstep _ => cases hstep

/-- The steps of a run up to the value for `lastStack` are those of the run
over any other stack. -/
theorem Visits.rebased {c c' : State} {vs : List Visit} {outcome : Outcome RuntimeError Value}
    {f : Frame} {k : Stack .value}
    (h : s.Visits c vs (.after outcome fun v t => .give v f lastStack t))
    (hc : c.Rebased lastStack k c') :
    s.Visits c' vs (.after outcome fun v t => .give v f k t) := by
  generalize hd : State.after outcome (fun v t => .give v f lastStack t) = d at h
  induction h generalizing c' with
  | refl c =>
    cases outcome with
    | ok v t =>
      cases hd
      cases hc with
      | give h =>
        cases h with
        | base => exact .refl _
        | push _ h => cases h
    | error e t | unfinished =>
      cases hd
      cases hc
      exact .refl _
  | step hstep hrest ih =>
    rcases s.step_rebased hc with ⟨o, rfl⟩ | ⟨v, g, t, rfl, rfl⟩ |
      ⟨d, d', hnext, hnext', hrebased, hvisits⟩
    · cases hstep
    · -- The value has come to `lastStack` already, and behind it the run ends well.
      cases hstep
      rcases visits_bottom hrest with rfl | rfl
      · cases outcome <;> cases hd
      · cases outcome <;> cases hd
    · cases hstep.symm.trans hnext
      rw [← hvisits]
      exact .step hnext' (ih hrebased hd)

/-- An evaluation starts the same evaluations over every stack. -/
theorem eval_visits (s : Scope) (e : Expr) (f : Frame) (t : Terminal) :
    ∃ vs, ∀ k, s.Visits (.eval e f k t) vs
      (.after (e.eval (s.call f.remaining) f.bindings t) fun v t => .give v f k t) := by
  -- One run is followed, over the smallest stack, and moved to all the others.
  obtain ⟨vs, hvs⟩ := exists_visits (eval_leads (s.callsLead f.remaining) e rfl lastStack t)
  exact ⟨vs, fun k => hvs.rebased (.eval .base ..)⟩

end Scope

end ScalarScript
