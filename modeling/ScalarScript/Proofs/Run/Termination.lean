import ScalarScript.Proofs.Run.Steps

/-!
# `ScalarScript.Proofs.Run.Termination`: programs without loops

Functions may call each other and themselves in any way, and still a
program without loops comes to an end. The measure is a pair. While a
body is executed the syntax that is left gets smaller; a call starts with
a whole new body, and then the budget of the frame is smaller.

`Scope.During c d` says that the run comes to the state `d` during the
evaluation or the execution that starts at `c`. The proof keeps what the
stack of `d` has above the stack of `c`: it is work of the same frame and
smaller than what `c` started with, or else there is a call in between
(`State.Inside`). `loopFree_terminates` puts both together.
-/

set_option autoImplicit false

namespace ScalarScript

/-- No loop stands in the statement. -/
def Stmt.LoopFree (s : Stmt) : Prop :=
  ∀ c body p, ¬ Stmt.Within (.whileStmt c body p) s

/-- No loop stands in a function of the program. -/
def Program.LoopFree (program : Program) : Prop :=
  ∀ c body p, ¬ program.Contains (.whileStmt c body p)

/-- A statement inside of one without loops has no loops. -/
theorem Stmt.LoopFree.of_within {s b : Stmt} (h : s.Within b) (hb : b.LoopFree) : s.LoopFree :=
  fun c body p hloop => hb c body p (hloop.trans h)

/-- Among the statements without loops there is no loop. -/
theorem noLoop_loopFree : NoLoop Stmt.LoopFree :=
  fun c body p h => h c body p .self

/-- No statement of a program without loops has a loop. -/
theorem Program.LoopFree.of_mem {program : Program} (h : program.LoopFree) :
    ∀ g ∈ program.functions, ∀ s ∈ g.body, s.LoopFree :=
  fun g hg s hs c body p hloop => h c body p ⟨g, hg, s, hs, hloop⟩

/-- An expression has at least one node. -/
theorem Expr.size_pos (e : Expr) : 0 < e.size := by
  cases e <;> simp [Expr.size]

/-- A statement has at least one node. -/
theorem Stmt.size_pos (s : Stmt) : 0 < s.size := by
  cases s with
  | declare name type initial p => cases initial <;> simp [Stmt.size]
  | returnStmt value p => cases value <;> simp [Stmt.size]
  | _ => simp [Stmt.size]

/-- The weight of a state at which an evaluation or an execution starts:
the budget of the frame, and the size of the syntax. -/
def State.weight? : State → Option (Nat × Nat)
  | .eval e f _ _ => some (f.remaining, e.size)
  | .exec s f _ _ => some (f.remaining, s.size)
  | _ => none

/-- `d.Answers c`: the evaluation or the execution that started at `c` has
come to its value or its signal in `d`. -/
inductive State.Answers : State → State → Prop
  | value {e : Expr} {v : Value} {f f' : Frame} {k : Stack .value} {t t' : Terminal} :
      Answers (.give v f' k t') (.eval e f k t)
  | signal {s : Stmt} {signal : Signal} {f f' : Frame} {k : Stack .signal} {t t' : Terminal} :
      Answers (.signal signal f' k t') (.exec s f k t)

/-- `s.During c d`: the steps from `c` come to `d`, and not before to the
answer of `c`. -/
inductive Scope.During (s : Scope) (c : State) : State → Prop
  | first {d : State} : s.step c = some d → During s c d
  | next {d d' : State} : During s c d → ¬ d.Answers c → s.step d = some d' → During s c d'

/-- `k.Deep Q k' n`: the stack `k'` is `k` with a call on top of it, and
perhaps more. Between `k` and the call there are `n` nodes. -/
inductive Stack.Deep (Q : Stmt → Prop) {b : Awaited} (k : Stack b) :
    {a : Awaited} → Stack a → Nat → Prop
  | caller {f : Frame} {callee : FunctionDecl} {p : Position} {k' : Stack .value} {n : Nat} :
      k.Above Q k' n → Deep Q k (.push (.caller f callee p) k') n
  | push {a c : Awaited} {item : Pending a c} {k' : Stack c} {n : Nat} :
      Deep Q k k' n → Deep Q k (.push item k') n

/-- The state is inside the work of `n` nodes that started on the stack
`k`. It has less than these left to do in the frame of `k`, or it is in a
frame that was called from there. -/
inductive State.Inside (Q : Stmt → Prop) {b : Awaited} (k : Stack b) (n : Nat) : State → Prop
  | ended {outcome : Outcome RuntimeError Value} : Inside Q k n (.ended outcome)
  | here {d : State} {f : Frame} {a : Awaited} {k' : Stack a} {i j : Nat} :
      d.At Q f k' i → k.Above Q k' j → i + j < n → Inside Q k n d
  | deeper {d : State} {f : Frame} {a : Awaited} {k' : Stack a} {i j : Nat} :
      d.At Q f k' i → k.Deep Q k' j → j < n → Inside Q k n d

section

variable {Q : Stmt → Prop} {a b : Awaited} {k : Stack b} {k' : Stack a} {c d : State} {f f' : Frame}
  {limit n m i j : Nat} {w : Nat × Nat}

namespace State

/-- What a state that starts some work weighs is the budget of its frame
and the nodes of the work. -/
theorem At.weight_eq (h : c.At Q f k n) (hw : c.weight? = some w) : w = (f.remaining, n) := by
  cases h with
  | eval | exec _ =>
    cases hw
    rfl
  | call | give | signal => cases hw

/-- Work that is started has at least one node. -/
theorem At.pos (h : c.At Q f k n) (hw : c.weight? = some w) : 0 < n := by
  cases h with
  | eval => exact Expr.size_pos _
  | exec _ => exact Stmt.size_pos _
  | call | give | signal => cases hw

/-- A value or a signal on the stack at which `c` started is its answer. -/
theorem At.answers (hc : c.At Q f k n) (hw : c.weight? = some w) (hd : d.At Q f' k m)
    (hanswer : d.isAnswer) : d.Answers c := by
  cases hc with
  | eval =>
    cases hd with
    | give => exact .value
    | eval | call => cases hanswer
  | exec _ =>
    cases hd with
    | signal => exact .signal
    | exec _ => cases hanswer
  | call | give | signal => cases hw

/-- The stack of a sound state fits the budget of its frame. -/
theorem Sound.fits (h : c.Sound Q limit) (hat : c.At Q f k n) : k.Fits Q limit f.remaining := by
  cases h with
  | ended => cases hat
  | active hat' hk =>
    cases hat <;> cases hat' <;> exact hk

end State

namespace Stack

/-- Items of one frame on top add no frame that waits for a call. -/
theorem Above.callers_eq (h : k.Above Q k' n) : k'.callers = k.callers := by
  induction h with
  | same => rfl
  | push hcaller _ _ ih => rw [Stack.callers, hcaller, ih, Option.toList_none, List.append_nil]

/-- A stack with a call on top has more frames that wait. -/
theorem Deep.length_callers_lt (h : k.Deep Q k' n) : k.callers.length < k'.callers.length := by
  induction h with
  | caller habove => simp [Stack.callers, Pending.caller?, habove.callers_eq]
  | push _ ih =>
    rw [Stack.callers, List.length_append]
    omega

/-- Items of one frame on top of a call are on top of what is below the
call. -/
theorem Deep.above {c : Awaited} {k'' : Stack c} (h : k.Deep Q k' n) (habove : k'.Above Q k'' m) :
    k.Deep Q k'' n := by
  induction habove with
  | same => exact h
  | push _ _ _ ih => exact .push ih

end Stack

namespace State

/-- What works on few enough nodes in the same frame is inside of the work
that was started. -/
theorem Works.inside_here {r : Nat} (h : d.Works Q k' r m) (hno : NoLoop Q)
    (hk : k.Above Q k' j) (hn : m + j < n) : d.Inside Q k n := by
  cases h with
  | ended _ => exact .ended
  | unfinished _ => exact .ended
  | active hat _ habove hm =>
    have := hm hno
    exact .here hat (hk.trans habove) (by omega)

/-- What works in a frame that was called is inside of the work that was
started. -/
theorem Works.inside_deeper {r : Nat} (h : d.Works Q k' r m) (hk : k.Deep Q k' j) (hn : j < n) :
    d.Inside Q k n := by
  cases h with
  | ended _ => exact .ended
  | unfinished _ => exact .ended
  | active hat _ habove _ => exact .deeper hat (hk.above habove) hn

/-- Inside the work that started at `c` the weight is smaller. -/
theorem Inside.weight_lt {v : Nat × Nat} (h : d.Inside Q k n) (hd : d.Sound Q limit)
    (hw : d.weight? = some w) (hc : c.At Q f k n) (hk : k.Fits Q limit f.remaining)
    (hv : c.weight? = some v) : Prod.Lex (· < ·) (· < ·) w v := by
  have hlimit := hk.remaining_add_length
  rw [hc.weight_eq hv]
  cases h with
  | ended => cases hw
  | @here _ f' _ _ _ _ hat habove hn =>
    -- The same frame, and fewer nodes.
    have hlimit' := (hd.fits hat).remaining_add_length
    rw [habove.callers_eq] at hlimit'
    have hsame : f'.remaining = f.remaining := by omega
    rw [hat.weight_eq hw, hsame]
    exact .right _ (by omega)
  | deeper hat hdeep _ =>
    -- A frame that was called later, so it has less to spend.
    have hlimit' := (hd.fits hat).remaining_add_length
    have hlt := hdeep.length_callers_lt
    rw [hat.weight_eq hw]
    exact .left _ _ (by omega)

end State

end

namespace Scope

variable {s : Scope} {Q : Stmt → Prop} (hQ : ∀ {s b : Stmt}, s.Within b → Q b → Q s)
  (hprogram : ∀ g ∈ s.program.functions, ∀ st ∈ g.body, Q st) (hno : NoLoop Q)
  {limit : Nat}
include hQ hprogram hno

/-- The first step of an evaluation or an execution. -/
theorem step_inside_of_weight {c d : State} {f : Frame} {a : Awaited} {k : Stack a} {n : Nat}
    {w : Nat × Nat} (hc : c.At Q f k n) (hk : k.Fits Q limit f.remaining)
    (hw : c.weight? = some w) (h : s.step c = some d) : d.Inside Q k n := by
  have hpos : 0 < n := hc.pos hw
  have hstarts : c.isAnswer = false := by
    cases hc with
    | eval | exec _ => rfl
    | call | give | signal => cases hw
  cases step_move hQ hprogram hc hk h with
  | work hworks => exact hworks.inside_here hno .same (by omega)
  | enter _ hworks => exact hworks.inside_deeper (.caller .same) hpos
  | exceed _ _ _ _ => exact .ended
  | resume hanswer _ _ => simp [hstarts] at hanswer
  | leave hanswer _ => simp [hstarts] at hanswer
  | finish hanswer => simp [hstarts] at hanswer

/-- Every further step stays inside, up to the answer. -/
theorem step_inside {d d' : State} {b : Awaited} {k : Stack b} {n : Nat} (hd : d.Sound Q limit)
    (hinside : d.Inside Q k n) (hanswer : ∀ f m, d.At Q f k m → d.isAnswer = false)
    (h : s.step d = some d') : d'.Inside Q k n := by
  cases hinside with
  | ended => cases h
  | here hat habove hn =>
    cases step_move hQ hprogram hat (hd.fits hat) h with
    | work hworks => exact hworks.inside_here hno habove (by omega)
    | enter _ hworks => exact hworks.inside_deeper (.caller habove) (by omega)
    | exceed _ _ _ _ => exact .ended
    | finish _ => exact .ended
    | resume hfound _ hworks =>
      -- The item belongs to the work unless nothing is above `k`; then this is the answer.
      cases habove with
      | same => simp [hanswer _ _ hat] at hfound
      | push _ _ habove => exact hworks.inside_here hno habove (by omega)
    | leave hfound _ =>
      cases habove with
      | same => simp [hanswer _ _ hat] at hfound
      | push hcaller _ _ => cases hcaller
  | deeper hat hdeep hn =>
    cases step_move hQ hprogram hat (hd.fits hat) h with
    | work hworks => exact hworks.inside_deeper hdeep hn
    | enter _ hworks => exact hworks.inside_deeper (.push hdeep) hn
    | exceed _ _ _ _ => exact .ended
    | finish _ => exact .ended
    | resume _ hcaller hworks =>
      cases hdeep with
      | caller _ => cases hcaller
      | push hdeep => exact hworks.inside_deeper hdeep hn
    | leave _ hworks =>
      cases hdeep with
      -- The call that was made in between returns.
      | caller habove => exact hworks.inside_here hno habove (by omega)
      | push hdeep => exact hworks.inside_deeper hdeep hn

/-- Whatever comes before the answer is inside. -/
theorem during_inside {c d : State} {f : Frame} {a : Awaited} {k : Stack a} {n : Nat}
    {w : Nat × Nat} (hsound : c.Sound Q limit) (hc : c.At Q f k n) (hw : c.weight? = some w)
    (h : s.During c d) : d.Sound Q limit ∧ d.Inside Q k n := by
  induction h with
  | first hstep =>
    exact ⟨step_sound hQ hprogram hsound hstep,
      step_inside_of_weight hQ hprogram hno hc (hsound.fits hc) hw hstep⟩
  | next _ hanswer hstep ih =>
    obtain ⟨hd, hinside⟩ := ih
    refine ⟨step_sound hQ hprogram hd hstep,
      step_inside hQ hprogram hno hd hinside (fun f' m hat => ?_) hstep⟩
    rw [Bool.eq_false_iff]
    exact fun hfound => hanswer (hc.answers hw hat hfound)

/-- A run never runs out of rounds. -/
theorem run_ne_unfinished (t : Terminal) : s.run t ≠ .unfinished := by
  intro h
  have hreaches := s.start_leads t
  rw [h] at hreaches
  rcases hreaches.cases_tail with hstart | ⟨c, hc, hstep⟩
  · rcases start_eq_ended hstart.symm with h | ⟨_, _, h⟩ <;> cases h
  · rcases step_ended hQ hprogram (reaches_sound hQ hprogram hc) hstep with h | ⟨-, hloop⟩ | h
    · cases h
    · exact hloop hno
    · obtain ⟨_, _, _, _, _, _, _, -, h, -⟩ := h
      cases h

omit hQ hprogram hno

/-- A program without loops comes to an end, whatever its calls are, for
every limit and with no round for any loop: its run has a value or an
error. And every evaluation and execution that the run comes to during
another has a smaller budget, or else the same budget and less syntax. -/
theorem loopFree_terminates (s : Scope) (hprogram : s.program.LoopFree) (t : Terminal) :
    ((∃ v t', s.run t = .ok v t') ∨ ∃ e t', s.run t = .error e t') ∧
    ∀ c d v w, s.Reaches t c → s.During c d → c.weight? = some v → d.weight? = some w →
      Prod.Lex (· < ·) (· < ·) w v := by
  constructor
  · have hrun := run_ne_unfinished Stmt.LoopFree.of_within hprogram.of_mem noLoop_loopFree t
    cases h : s.run t with
    | ok v t' => exact .inl ⟨v, t', rfl⟩
    | error e t' => exact .inr ⟨e, t', rfl⟩
    | unfinished => exact absurd h hrun
  · intro c d v w hc hduring hv hw
    have hsound := reaches_sound Stmt.LoopFree.of_within hprogram.of_mem hc
    cases hsound with
    | ended => cases hv
    | active hat hk =>
      obtain ⟨hd, hinside⟩ := during_inside Stmt.LoopFree.of_within hprogram.of_mem
        noLoop_loopFree (.active hat hk) hat hv hduring
      exact hinside.weight_lt hd hw hat hk hv

/-- Two functions that call each other. The second call is made during the
first, from a frame with a smaller budget. -/
theorem loopFree_terminates_mutual :
    let main : FunctionDecl := ⟨"main", [], .int, [.call "f" [] .start], .start, .start⟩
    let f : FunctionDecl := ⟨"f", [], .int, [.call "main" [] .start], .start, .start⟩
    let scope : Scope := ⟨Program.empty.afterOffers [main, f], 2, 0⟩
    let t : Terminal := .scripted []
    scope.program.LoopFree ∧
    ((∃ v t', scope.run t = .ok v t') ∨ ∃ e t', scope.run t = .error e t') ∧
    ∃ d w, scope.During (scope.start t) d ∧ d.weight? = some w ∧
      Prod.Lex (· < ·) (· < ·) w (2, 1) := by
  intro main f scope t
  have hloops : scope.program.LoopFree := by
    rintro c body p ⟨g, hg, b, hb, hwithin⟩
    have hfunctions : scope.program.functions = [main, f] := by rfl
    simp only [hfunctions, List.mem_cons, List.not_mem_nil, or_false] at hg
    rcases hg with rfl | rfl
    · simp only [main, List.mem_singleton] at hb
      subst hb
      cases hwithin
    · simp only [f, List.mem_singleton] at hb
      subst hb
      cases hwithin
  have hends := loopFree_terminates scope hloops t
  have hduring : scope.During (scope.start t) (.exec (.call "main" [] .start) (f.frame [] 1)
      (.push (.sequel []) (.push (.caller (.enter "main" 2) f .start)
        (.push .discard (.push (.sequel []) .bottom)))) t) :=
    .next (.first rfl) (fun h => by cases h) rfl
  exact ⟨hloops, hends.1, _, (1, 1), hduring, rfl, hends.2 _ _ _ _ .refl hduring rfl rfl⟩

end Scope

end ScalarScript
