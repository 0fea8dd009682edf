import ScalarScript.Program.Run

/-!
# `ScalarScript.Proofs.Run.Outcome`: the outcome of sequences of runs

When one run after another ends well, so does each of them:
`bind_eq_ok_iff` takes such a run apart, and the proofs about evaluation
and execution never look into `Run`. `rounds_succ` brings the loop into
the same form, as a test, a round and the rounds behind it. With it
`rounds_keeps` and `execAll_keeps` carry what holds between the frames
before and behind one statement over loops and sequences of them. The
lemmas about `Scope.call` say what becomes of a call in each of its
cases.
-/

set_option autoImplicit false

namespace ScalarScript

namespace Run

variable {ε α β : Type}

/-- A run after another starts with the value and the terminal that the
first has left. -/
theorem bind_apply (r : Run ε α) (next : α → Run ε β) (t : Terminal) :
    (r >>= next) t = match r t with
      | .ok a t => next a t
      | .error e t => .error e t
      | .unfinished => .unfinished := rfl

@[simp] theorem pure_eq_ok_iff (a b : α) (t t' : Terminal) :
    (pure a : Run ε α) t = .ok b t' ↔ b = a ∧ t' = t := by
  show Outcome.ok a t = .ok b t' ↔ _
  rw [Outcome.ok.injEq, eq_comm, eq_comm (a := t)]

@[simp] theorem fail_eq_ok_iff (e : ε) (a : α) (t t' : Terminal) :
    (fail e : Run ε α) t = .ok a t' ↔ False := by
  show Outcome.error e t = .ok a t' ↔ _
  simp

/-- Two runs in a row end well exactly if both do, the second from where
the first has ended. -/
theorem bind_eq_ok_iff (r : Run ε α) (next : α → Run ε β) (b : β) (t t'' : Terminal) :
    (r >>= next) t = .ok b t'' ↔ ∃ a t', r t = .ok a t' ∧ next a t' = .ok b t'' := by
  rw [bind_apply]
  cases r t with
  | ok a t' =>
    constructor
    · intro h
      exact ⟨a, t', rfl, h⟩
    · rintro ⟨a', t', h, h'⟩
      cases h
      exact h'
  | error e t' => simp
  | unfinished => simp

/-- A result that is there already leaves the terminal as it is. -/
theorem ofExcept_eq_ok_iff (r : Except ε α) (a : α) (t t' : Terminal) :
    ofExcept r t = .ok a t' ↔ r = .ok a ∧ t' = t := by
  cases r with
  | ok b =>
    show Outcome.ok b t = .ok a t' ↔ _
    rw [Outcome.ok.injEq, Except.ok.injEq, eq_comm (a := t)]
  | error e =>
    show Outcome.error e t = .ok a t' ↔ _
    simp

end Run

/-- How a loop goes on behind a round. -/
def nextRound (again : Frame → Run RuntimeError (Frame × Signal)) :
    Frame × Signal → Run RuntimeError (Frame × Signal)
  | (f, .through) | (f, .continuing) => again f
  | (f, .breaking) => pure (f, .through)
  | (f, .returning v) => pure (f, .returning v)

/-- A loop is a test, a round and the rounds behind it. -/
theorem rounds_succ (test : Frame → Run RuntimeError Bool)
    (body : Frame → Run RuntimeError (Frame × Signal)) (n : Nat) (f : Frame) :
    rounds test body (n + 1) f = (do
      if ← test f then body f >>= nextRound (rounds test body n)
      else pure (f, .through) : Run RuntimeError (Frame × Signal)) := by
  funext t
  rw [rounds, Run.bind_apply]
  cases test f t with
  | error e t => rfl
  | unfinished => rfl
  | ok b t =>
    cases b with
    | false => rfl
    | true =>
      simp only [if_true, Run.bind_apply]
      cases body f t with
      | error e t => rfl
      | unfinished => rfl
      | ok result t =>
        obtain ⟨g, signal⟩ := result
        cases signal <;> rfl

/-! ### What becomes of the frame -/

section

variable {G : Frame → Frame → Prop} (hrefl : ∀ f, G f f)
  (htrans : ∀ {f g h : Frame}, G f g → G g h → G f h)
include hrefl htrans

/-- A preorder of frames that every round keeps is kept by the loop. -/
theorem rounds_keeps {test : Frame → Run RuntimeError Bool}
    {body : Frame → Run RuntimeError (Frame × Signal)}
    (hbody : ∀ {f f' : Frame} {signal : Signal} {t t' : Terminal},
      body f t = .ok (f', signal) t' → G f f')
    (n : Nat) {f f' : Frame} {signal : Signal} {t t' : Terminal}
    (h : rounds test body n f t = .ok (f', signal) t') : G f f' := by
  induction n generalizing f t with
  | zero =>
    -- A loop without rounds left has no outcome.
    cases h
  | succ n ih =>
    rw [rounds_succ] at h
    obtain ⟨b, t₁, -, h⟩ := (Run.bind_eq_ok_iff _ _ _ _ _).mp h
    cases b with
    | false =>
      obtain ⟨hf, -⟩ := (Run.pure_eq_ok_iff _ _ _ _).mp h
      cases hf
      exact hrefl _
    | true =>
      obtain ⟨⟨g, signal'⟩, t₂, hround, h⟩ := (Run.bind_eq_ok_iff _ _ _ _ _).mp h
      have hg : G f g := hbody hround
      cases signal' with
      | through | continuing => exact htrans hg (ih h)
      | breaking | returning v =>
        obtain ⟨hf, -⟩ := (Run.pure_eq_ok_iff _ _ _ _).mp h
        cases hf
        exact hg

/-- A preorder of frames that every statement keeps is kept by all of
them in turn. -/
theorem execAll_keeps {call : Caller} {fuel : Nat} {ss : List Stmt}
    (hss : ∀ s ∈ ss, ∀ {f f' : Frame} {signal : Signal} {t t' : Terminal},
      s.exec call fuel f t = .ok (f', signal) t' → G f f')
    {f f' : Frame} {signal : Signal} {t t' : Terminal}
    (h : execAll call fuel ss f t = .ok (f', signal) t') : G f f' := by
  induction ss generalizing f t with
  | nil =>
    obtain ⟨hf, -⟩ := (Run.pure_eq_ok_iff _ _ _ _).mp h
    cases hf
    exact hrefl _
  | cons s ss ih =>
    rw [execAll] at h
    obtain ⟨⟨g, signal'⟩, t₁, hs, h⟩ := (Run.bind_eq_ok_iff _ _ _ _ _).mp h
    have hg : G f g := hss s (by simp) hs
    cases signal' with
    | through => exact htrans hg (ih (fun s hs => hss s (by simp [hs])) h)
    | breaking | continuing | returning v =>
      obtain ⟨hf, -⟩ := (Run.pure_eq_ok_iff _ _ _ _).mp h
      cases hf
      exact hg

end

/-! ### Calls -/

namespace Scope

variable {s : Scope} {remaining : Nat} {name : String} {args : List Value} {p : Position}

/-- A call of a name that stands for nothing fails. -/
theorem call_of_none (hname : s.program.resolve? name = none) :
    s.call remaining name args p = Run.fail (.undefinedFunction name p) := by
  unfold call callThrough
  rw [hname]

/-- A call of a builtin function is made as it is. -/
theorem call_of_builtin {b : Builtin} (hname : s.program.resolve? name = some (.builtin b)) :
    s.call remaining name args p = b.call args p := by
  unfold call callThrough
  rw [hname]

/-- A call with a wrong number of arguments fails before anything is
entered. -/
theorem call_of_length_ne {f : FunctionDecl} (hname : s.program.resolve? name = some (.declared f))
    (hargs : args.length ≠ f.parameters.length) :
    s.call remaining name args p = Run.fail (.argumentCountMismatch f.name
      (.exactly f.parameters.length) args.length p) := by
  unfold call callThrough
  rw [hname]
  exact if_pos hargs

/-- The budget is used up. -/
theorem call_of_le_one {f : FunctionDecl} (hname : s.program.resolve? name = some (.declared f))
    (hargs : args.length = f.parameters.length) (hremaining : remaining ≤ 1) :
    s.call remaining name args p = Run.fail (.callDepthExceeded f.name s.callDepth) := by
  unfold call callThrough
  rw [hname]
  dsimp only
  rw [if_neg (not_not_intro hargs)]
  split
  · rfl
  · rfl
  · omega

/-- The body is executed with one frame less to spend. -/
theorem call_of_declared {f : FunctionDecl} (hname : s.program.resolve? name = some (.declared f))
    (hargs : args.length = f.parameters.length) (budget : Nat) :
    s.call (budget + 2) name args p = (do
      let (_, signal) ← execAll (s.call (budget + 1)) s.fuel f.body (f.frame args (budget + 1))
      Run.ofExcept (signal.result.stored f.result .result f.name p)) := by
  rw [call, callThrough, hname]
  dsimp only
  rw [if_neg (not_not_intro hargs)]
  rfl

end Scope

end ScalarScript
