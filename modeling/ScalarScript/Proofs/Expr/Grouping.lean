import ScalarScript.Proofs.Run.Visits

/-!
# `ScalarScript.Proofs.Expr.Grouping`: chains inside of chains

A chain of `and` may have a chain of `and` among its operands, and a chain
of `or` one of `or`. The inner chain makes no difference: its operands
could as well be operands of the outer one.

`Expr.decides` is what one operand does in a chain, and evaluation and the
steps of a run go on from there in the same way (`evalLogical_cons`,
`decides_visits`). An inner chain that is not decided has the value that
does not decide the outer one, and an inner chain that is decided has the
value that does. So the two groupings give the same value or the same
error at the same terminal, and they start the same evaluations in the same
order, but for that of the inner chain: this is
`logical_grouping_irrelevant`.
-/

set_option autoImplicit false

namespace ScalarScript

/-- Whether the value of an operand decides a logical chain. It has to be a
truth value. -/
def LogicalOp.decidedBy (op : LogicalOp) (v : Value) (operand : Expr) : Except RuntimeError Bool :=
  match v.toBool? with
  | none => .error (badOperand op.text v operand)
  | some b => .ok (b = op.decisive)

/-- What becomes of a chain with its next operand. -/
def Expr.decides (call : Caller) (vars : Bindings) (op : LogicalOp) (e : Expr) :
    Run RuntimeError Bool := do
  let v ← e.eval call vars
  Run.ofExcept (op.decidedBy v e)

section

variable (call : Caller) (vars : Bindings) (op : LogicalOp)

/-- A chain looks at its first operand, and goes on if this does not
decide it. -/
theorem evalLogical_cons (e : Expr) (es : List Expr) :
    evalLogical call vars op (e :: es) = (e.decides call vars op >>= fun decided =>
      if decided then pure (.bool op.decisive) else evalLogical call vars op es) := by
  rw [evalLogical, Expr.decides, bind_assoc]
  refine bind_congr fun v => ?_
  unfold LogicalOp.decidedBy
  cases v.toBool? with
  | none => rfl
  | some b =>
    show _ = (pure (decide (b = op.decisive)) >>= _)
    rw [pure_bind]
    by_cases hb : b = op.decisive
    · simp [hb]
    · simp [hb]

/-- A chain at the head of a chain decides as its operands do. -/
theorem evalLogical_nested (ys zs : List Expr) (q : Position) :
    evalLogical call vars op (.logical op ys q :: zs) = evalLogical call vars op (ys ++ zs) := by
  rw [evalLogical, Expr.eval]
  -- The inner chain has a truth value, so no error names it.
  generalize Expr.logical op ys q = inner
  induction ys with
  | nil =>
    rw [evalLogical, pure_bind]
    simp [Value.toBool?]
  | cons y ys ih =>
    rw [List.cons_append, evalLogical_cons, evalLogical_cons, bind_assoc]
    refine bind_congr fun decided => ?_
    cases decided with
    | true => simp [Value.toBool?]
    | false => exact ih

/-- The operands in front are evaluated as before. -/
theorem evalLogical_append_congr (xs : List Expr) {es es' : List Expr}
    (h : evalLogical call vars op es = evalLogical call vars op es') :
    evalLogical call vars op (xs ++ es) = evalLogical call vars op (xs ++ es') := by
  induction xs with
  | nil => exact h
  | cons x xs ih => rw [List.cons_append, List.cons_append, evalLogical_cons, evalLogical_cons, ih]

end

/-! ### The steps of a chain -/

/-- The state after two runs in a row is the state after the second, from
where the first ended. -/
theorem State.after_bind {α β : Type} (r : Run RuntimeError α) (next : α → Run RuntimeError β)
    (t : Terminal) (go : β → Terminal → State) :
    State.after ((r >>= next) t) go = State.after (r t) fun a t => .after (next a t) go := by
  rw [Run.bind_apply]
  cases r t <;> rfl

/-- What becomes of a chain with the value of its operand. -/
theorem Pending.onValue_logic (op : LogicalOp) (e : Expr) (es : List Expr) (v : Value) (f : Frame)
    (t : Terminal) (k : Stack .value) :
    Pending.onValue v f t (.logic op e es) k =
      .after (Run.ofExcept (op.decidedBy v e) t) fun decided t =>
        if decided then .give (.bool op.decisive) f k t else .connect op f k t es := by
  unfold onValue LogicalOp.decidedBy
  cases v.toBool? with
  | none => rfl
  | some b =>
    by_cases hb : b = op.decisive
    · simp [hb, Run.ofExcept, Run.value, State.after]
    · simp [hb, Run.ofExcept, Run.value, State.after]

namespace Scope

variable (s : Scope) (op : LogicalOp) (f : Frame)

/-- The end of the evaluation of a logical chain. -/
def connected (k : Stack .value) (t : Terminal) (es : List Expr) : State :=
  .after (evalLogical (s.call f.remaining) f.bindings op es t) fun v t => .give v f k t

/-- The steps of one operand of a chain, whatever follows it and whatever
the chain is needed for. -/
theorem decides_visits (e : Expr) (t : Terminal) :
    ∃ vs, ∀ k es, s.Visits (.connect op f k t (e :: es)) vs
      (.after (e.decides (s.call f.remaining) f.bindings op t) fun decided t =>
        if decided then .give (.bool op.decisive) f k t else .connect op f k t es) := by
  obtain ⟨vs, hvs⟩ := s.eval_visits e f t
  refine ⟨vs, fun k es => ?_⟩
  have hoperand : s.Visits (.connect op f k t (e :: es)) vs _ := hvs (.push (.logic op e es) k)
  rw [Expr.decides, State.after_bind]
  cases hv : e.eval (s.call f.remaining) f.bindings t with
  | error _ _ | unfinished =>
    rw [hv] at hoperand
    exact hoperand
  | ok v t₁ =>
    rw [hv] at hoperand
    show s.Visits _ _ (.after (Run.ofExcept (op.decidedBy v e) t₁) _)
    rw [← Pending.onValue_logic, ← List.append_nil vs]
    exact hoperand.trans (.step rfl (.refl _))

/-- The end of a chain is that of its first operand, and behind it that of
the others unless they are not needed. -/
theorem connected_cons (k : Stack .value) (t : Terminal) (e : Expr) (es : List Expr) :
    s.connected op f k t (e :: es) =
      .after (e.decides (s.call f.remaining) f.bindings op t) fun decided t =>
        if decided then .give (.bool op.decisive) f k t else s.connected op f k t es := by
  unfold connected
  rw [evalLogical_cons, State.after_bind]
  congr 1
  funext decided t
  cases decided <;> rfl

/-- A chain that is an operand takes the steps that its operands take in its
place, over any item that waits for its value. -/
theorem nested_visits (ys zs : List Expr) (inner : Expr) (k : Stack .value) (t : Terminal) :
    ∃ vs, s.Visits (.connect op f (.push (.logic op inner zs) k) t ys) vs
        (s.connected op f k t (ys ++ zs)) ∧
      s.Visits (.connect op f k t (ys ++ zs)) vs (s.connected op f k t (ys ++ zs)) := by
  -- What the inner chain gives comes to the outer one.
  have hgive : ∀ b t, s.step (.give (.bool b) f (.push (.logic op inner zs) k) t) =
      some (if b = op.decisive then .give (.bool b) f k t else .connect op f k t zs) :=
    fun b t => rfl
  induction ys generalizing t with
  | nil =>
    have hleads : s.Leads (.connect op f k t zs) (s.connected op f k t zs) :=
      connect_leads (fun e _ => eval_leads (s.callsLead f.remaining) e rfl) op k t
    obtain ⟨vs, hvs⟩ := exists_visits hleads
    refine ⟨vs, .step ((hgive _ t).trans ?_) hvs, hvs⟩
    simp
  | cons y ys ih =>
    obtain ⟨vs, hvs⟩ := s.decides_visits op f y t
    have hinner := hvs (.push (.logic op inner zs) k) ys
    have hflat := hvs k (ys ++ zs)
    rw [List.cons_append, connected_cons]
    cases hy : y.decides (s.call f.remaining) f.bindings op t with
    | error _ _ | unfinished =>
      rw [hy] at hinner hflat
      exact ⟨vs, hinner, hflat⟩
    | ok decided t₁ =>
      rw [hy] at hinner hflat
      cases decided with
      | true =>
        -- The value that decides the inner chain decides the outer one, one step later.
        refine ⟨vs, ?_, hflat⟩
        rw [← List.append_nil vs]
        exact hinner.trans (.step ((hgive _ t₁).trans (by simp [State.after])) (.refl _))
      | false =>
        obtain ⟨ws, hws, hws'⟩ := ih t₁
        exact ⟨vs ++ ws, hinner.trans hws, hflat.trans hws'⟩

end Scope

/-- Two lists of evaluations are the same, or the first has one more, that
of `inner`. -/
def SameButFor (inner : Expr) (f : Frame) (vs ws : List Visit) : Prop :=
  vs = ws ∨ ∃ before behind t, vs = before ++ ⟨inner, f, t⟩ :: behind ∧ ws = before ++ behind

/-- The same visits in front change nothing in how two lists of visits
differ. -/
theorem SameButFor.append_left {inner : Expr} {f : Frame} {vs ws : List Visit}
    (h : SameButFor inner f vs ws) (front : List Visit) :
    SameButFor inner f (front ++ vs) (front ++ ws) := by
  rcases h with rfl | ⟨before, behind, t, rfl, rfl⟩
  · exact .inl rfl
  · exact .inr ⟨front ++ before, behind, t, by simp, by simp⟩

/-- A chain with another one among its operands and the chain without it
come to the same end, and start the same evaluations. -/
theorem Scope.grouping_visits (s : Scope) (op : LogicalOp) (f : Frame) (xs ys zs : List Expr)
    (q : Position) (k : Stack .value) (t : Terminal) :
    ∃ vs ws,
      s.Visits (.connect op f k t (xs ++ .logical op ys q :: zs)) vs
        (s.connected op f k t (xs ++ (ys ++ zs))) ∧
      s.Visits (.connect op f k t (xs ++ (ys ++ zs))) ws
        (s.connected op f k t (xs ++ (ys ++ zs))) ∧
      SameButFor (.logical op ys q) f vs ws := by
  induction xs generalizing t with
  | nil =>
    obtain ⟨ws, hinner, hflat⟩ := s.nested_visits op f ys zs (.logical op ys q) k t
    exact ⟨_, ws, .step rfl hinner, hflat, .inr ⟨[], ws, t, rfl, rfl⟩⟩
  | cons x xs ih =>
    obtain ⟨vs, hvs⟩ := s.decides_visits op f x t
    have hnested := hvs k (xs ++ .logical op ys q :: zs)
    have hflat := hvs k (xs ++ (ys ++ zs))
    rw [List.cons_append, List.cons_append, connected_cons]
    cases hx : x.decides (s.call f.remaining) f.bindings op t with
    | error _ _ | unfinished =>
      rw [hx] at hnested hflat
      exact ⟨vs, vs, hnested, hflat, .inl rfl⟩
    | ok decided t₁ =>
      rw [hx] at hnested hflat
      cases decided with
      | true => exact ⟨vs, vs, hnested, hflat, .inl rfl⟩
      | false =>
        obtain ⟨us, ws, hus, hws, hsame⟩ := ih t₁
        exact ⟨vs ++ us, vs ++ ws, hnested.trans hus, hflat.trans hws, hsame.append_left vs⟩

/-- How the operands of a chain of `and` or of `or` are grouped into chains
of the same operator does not matter. With any functions to be called and
any variables, the two groupings have the same value or the same error, and
they leave the same terminal. Wherever in a run they stand, their steps come
to the same state, and the evaluations that they start are the same in the
same order, apart from the two chains and the inner one. -/
theorem logical_grouping_irrelevant (op : LogicalOp) (xs ys zs : List Expr) (p p' q : Position) :
    let nested : Expr := .logical op (xs ++ [.logical op ys q] ++ zs) p
    let flat : Expr := .logical op (xs ++ ys ++ zs) p'
    (∀ (call : Caller) (vars : Bindings), nested.eval call vars = flat.eval call vars) ∧
    ∀ (s : Scope) (f : Frame) (k : Stack .value) (t : Terminal), ∃ vs ws,
      s.Visits (.eval nested f k t) (⟨nested, f, t⟩ :: vs)
        (.after (flat.eval (s.call f.remaining) f.bindings t) fun v t => .give v f k t) ∧
      s.Visits (.eval flat f k t) (⟨flat, f, t⟩ :: ws)
        (.after (flat.eval (s.call f.remaining) f.bindings t) fun v t => .give v f k t) ∧
      SameButFor (.logical op ys q) f vs ws := by
  intro nested flat
  have hflat : flat = .logical op (xs ++ (ys ++ zs)) p' := by simp [flat]
  have hnested : nested = .logical op (xs ++ .logical op ys q :: zs) p := by simp [nested]
  rw [hflat, hnested]
  refine ⟨fun call vars => ?_, fun s f k t => ?_⟩
  · rw [Expr.eval, Expr.eval]
    exact evalLogical_append_congr call vars op xs (evalLogical_nested call vars op ys zs q)
  · obtain ⟨vs, ws, hvs, hws, hsame⟩ := s.grouping_visits op f xs ys zs q k t
    rw [Expr.eval]
    exact ⟨vs, ws, .step rfl hvs, .step rfl hws, hsame⟩

end ScalarScript
