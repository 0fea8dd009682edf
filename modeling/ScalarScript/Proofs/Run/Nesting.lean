import ScalarScript.Proofs.Run.Steps

/-!
# `ScalarScript.Proofs.Run.Nesting`: the limit on nested calls

The frames of a state are those of the functions that are being executed,
the frame of `main` first. Every frame knows how many frames there may
still be, itself included, and no one counts them: that this number
together with the frames before it is the limit (`frames_remaining`)
follows from `Stack.Fits`.

`nesting_bounded` states what the limit means for a run. There are never
more frames than it allows, and a run fails for it if and only if it comes
to a call from the last frame allowed. That call executes nothing.
-/

set_option autoImplicit false

namespace ScalarScript

/-- The frames of the functions that are being executed, the frame of
`main` first. -/
def State.frames : State → List Frame
  | .eval _ f k _ | .call _ _ _ f k _ | .give _ f k _ => k.callers ++ [f]
  | .exec _ f k _ | .signal _ f k _ => k.callers ++ [f]
  | .ended _ => []

/-- The frames of a state are those that wait for a call and the current
one. -/
theorem State.At.frames_eq {Q : Stmt → Prop} {c : State} {f : Frame} {a : Awaited} {k : Stack a}
    {n : Nat} (h : c.At Q f k n) : c.frames = k.callers ++ [f] := by
  cases h <;> rfl

namespace Stack.Fits

variable {Q : Stmt → Prop} {limit r : Nat} {a : Awaited} {k : Stack a}

/-- Below a frame there is one that called it, which had budget to
spend. -/
theorem pos_of_callers (h : k.Fits Q limit r) (hk : k.callers ≠ []) : 0 < r := by
  induction h with
  | bottom => exact absurd rfl hk
  | push hcaller _ _ ih =>
    rw [Stack.callers, hcaller] at hk
    exact ih (by simpa using hk)
  | @caller f _ _ _ r hbudget _ _ => exact ((f.childBudget?_eq_some_iff r).mp hbudget).2

/-- If the frames of a stack have what is left of the limit, so does the
frame on top of it. -/
theorem remaining_of_append {f : Frame} (h : k.Fits Q limit f.remaining)
    (hk : ∀ d F, k.callers[d]? = some F → F.remaining + d = limit) (d : Nat) (F : Frame)
    (hF : (k.callers ++ [f])[d]? = some F) : F.remaining + d = limit := by
  by_cases hd : d < k.callers.length
  · rw [List.getElem?_append_left hd] at hF
    exact hk d F hF
  · rw [List.getElem?_append_right (by omega), List.getElem?_singleton] at hF
    split at hF
    · cases hF
      have := h.remaining_add_length
      omega
    · cases hF

/-- The frames that wait for a call have budgets that count down from the
limit. -/
theorem callers_remaining (h : k.Fits Q limit r) :
    ∀ d F, k.callers[d]? = some F → F.remaining + d = limit := by
  induction h with
  | bottom => simp [Stack.callers]
  | push hcaller _ _ ih => simpa [Stack.callers, hcaller] using ih
  | caller _ hk ih => exact hk.remaining_of_append ih

end Stack.Fits

namespace State.Sound

variable {Q : Stmt → Prop} {limit : Nat} {c : State}

/-- The budget of a frame is what the frames before it have left of the
limit. -/
theorem frames_remaining (h : c.Sound Q limit) (d : Nat) (F : Frame)
    (hF : c.frames[d]? = some F) : F.remaining + d = limit := by
  cases h with
  | ended => simp [State.frames] at hF
  | active hat hk =>
    rw [hat.frames_eq] at hF
    exact hk.remaining_of_append hk.callers_remaining d F hF

/-- There are no more frames than the limit allows; the frame of `main`
is always allowed. -/
theorem length_frames_le (h : c.Sound Q limit) : c.frames.length ≤ max limit 1 := by
  cases h with
  | ended => simp [State.frames]
  | @active _ f _ k _ hat hk =>
    rw [hat.frames_eq, List.length_append, List.length_singleton]
    -- Without callers only `main` is there, and its budget may be 0.
    by_cases hcallers : k.callers = []
    · rw [hcallers]
      exact Nat.le_max_right limit 1
    · have := hk.pos_of_callers hcallers
      have := hk.remaining_add_length
      omega

end State.Sound

namespace Scope

variable {s : Scope}

/-- Every state of a run is sound, whatever its statements are. -/
theorem sound_of_reaches {t : Terminal} {c : State} (h : s.Reaches t c) :
    c.Sound (fun _ => True) s.callDepth :=
  reaches_sound (fun _ _ => trivial) (fun _ _ _ _ => trivial) h

/-- In a run a call finds the budget used up if and only if there are as
many frames as the limit allows. -/
theorem childBudget?_eq_none_iff_frames {t t' : Terminal} {name : String} {args : List Value}
    {p : Position} {f : Frame} {k : Stack .value} (h : s.Reaches t (.call name args p f k t')) :
    f.childBudget? = none ↔
      (State.call name args p f k t').frames.length = max s.callDepth 1 := by
  have hbound := (sound_of_reaches h).length_frames_le
  have hbudget := (sound_of_reaches h).frames_remaining k.callers.length f (by simp [State.frames])
  -- With `n` frames below, the budget is `callDepth - n`; it is used up when at most 1 is left.
  simp only [State.frames, List.length_append, List.length_singleton] at hbound ⊢
  rw [f.childBudget?_eq_none_iff]
  omega

/-- Only a call fails for the limit. -/
theorem call_of_step_exceeded {t t' : Terminal} {c : State} {name : String} {limit : Nat}
    (hc : s.Reaches t c)
    (h : s.step c = some (.ended (.error (.callDepthExceeded name limit) t'))) :
    limit = s.callDepth ∧ ∃ g args p f k, c = .call name args p f k t' ∧
      s.program.resolve? name = some (.declared g) ∧ args.length = g.parameters.length ∧
      f.childBudget? = none := by
  rcases step_ended (fun _ _ => trivial) (fun _ _ _ _ => trivial) (sound_of_reaches hc) h with
    hplain | ⟨h, -⟩ | ⟨_, args, p, f, k, _, g, hcall, h, hname, hargs, hbudget⟩
  · cases hplain with
    | error hplace => cases hplace
  · cases h
  · cases h
    obtain ⟨-, hsame⟩ := Program.mem_of_resolve? hname
    subst hsame
    exact ⟨rfl, g, args, p, f, k, hcall, hname, hargs, hbudget⟩

/-- A call of a declared function from a frame without budget. -/
theorem step_call_exceeded {name : String} {args : List Value} {p : Position} {f : Frame}
    {k : Stack .value} {t : Terminal} {g : FunctionDecl}
    (hname : s.program.resolve? name = some (.declared g))
    (hargs : args.length = g.parameters.length) (hbudget : f.childBudget? = none) :
    s.step (.call name args p f k t) =
      some (.ended (.error (.callDepthExceeded name s.callDepth) t)) := by
  rw [step, enter, hname]
  dsimp only
  rw [if_neg (not_not_intro hargs), hbudget, (Program.mem_of_resolve? hname).2]

/-- A call of a builtin function keeps the frames, unless it fails. -/
theorem frames_of_step_builtin {name : String} {args : List Value} {p : Position} {f : Frame}
    {k : Stack .value} {t : Terminal} {b : Builtin} {c : State}
    (hname : s.program.resolve? name = some (.builtin b))
    (h : s.step (.call name args p f k t) = some c) :
    c.frames = (State.call name args p f k t).frames ∨ ∃ e t', c = .ended (.error e t') := by
  rw [step, enter, hname, Option.some.injEq] at h
  dsimp only at h
  have hplain := b.call_plain p t args
  revert h hplain
  cases b.call args p t with
  | ok v t' =>
    rintro rfl _
    exact .inl rfl
  | error e t' =>
    rintro rfl _
    exact .inr ⟨e, t', rfl⟩
  | unfinished =>
    intro _ hplain
    cases hplain

/-- The limit on nested calls. The states that a run comes to are those of
the run: they have its outcome at their end. In each of them the frame at
the level `d`, counted from 0, has the budget that is left behind `d`
frames, and there are no more frames than the limit, or one if the limit
is 0. A builtin function adds none. A run fails for the limit if and only
if it comes to a call of a declared function, with the right number of
arguments, with all frames in use that the limit allows; and the step
that follows such a call ends the run, so no statement of the function is
executed. -/
theorem nesting_bounded (s : Scope) (t : Terminal) :
    (∀ outcome, s.Reaches t (.ended outcome) ↔ outcome = s.run t) ∧
    (∀ c, s.Reaches t c → c.frames.length ≤ max s.callDepth 1 ∧
      ∀ d F, c.frames[d]? = some F → F.remaining + d = s.callDepth) ∧
    (∀ name args p f k t' b c, s.program.resolve? name = some (.builtin b) →
      s.step (.call name args p f k t') = some c →
      c.frames = (State.call name args p f k t').frames ∨ ∃ e t'', c = .ended (.error e t'')) ∧
    (∀ name limit t', s.run t = .error (.callDepthExceeded name limit) t' ↔
      limit = s.callDepth ∧ ∃ g args p f k, s.Reaches t (.call name args p f k t') ∧
        s.program.resolve? name = some (.declared g) ∧ args.length = g.parameters.length ∧
        (State.call name args p f k t').frames.length = max s.callDepth 1) ∧
    (∀ name g args p f k t', s.Reaches t (.call name args p f k t') →
      s.program.resolve? name = some (.declared g) → args.length = g.parameters.length →
      (State.call name args p f k t').frames.length = max s.callDepth 1 →
      s.step (.call name args p f k t') =
        some (.ended (.error (.callDepthExceeded name s.callDepth) t'))) := by
  refine ⟨s.reaches_ended_iff t, ?_, ?_, ?_, ?_⟩
  · intro c hc
    exact ⟨(sound_of_reaches hc).length_frames_le, (sound_of_reaches hc).frames_remaining⟩
  · intro name args p f k t' b c hname hstep
    exact frames_of_step_builtin hname hstep
  · intro name limit t'
    rw [eq_comm, ← s.reaches_ended_iff t]
    constructor
    · intro h
      -- The run did not start with its end, so there is a last step.
      rcases h.cases_tail with hstart | ⟨c, hc, hstep⟩
      · rcases start_eq_ended hstart.symm with h | ⟨_, _, h⟩ <;> cases h
      · obtain ⟨hlimit, g, args, p, f, k, rfl, hname, hargs, hbudget⟩ :=
          call_of_step_exceeded hc hstep
        exact ⟨hlimit, g, args, p, f, k, hc, hname, hargs,
          (childBudget?_eq_none_iff_frames hc).mp hbudget⟩
    · rintro ⟨rfl, g, args, p, f, k, hc, hname, hargs, hframes⟩
      have hbudget := (childBudget?_eq_none_iff_frames hc).mpr hframes
      exact hc.tail (step_call_exceeded hname hargs hbudget)
  · intro name g args p f k t' hc hname hargs hframes
    exact step_call_exceeded hname hargs ((childBudget?_eq_none_iff_frames hc).mpr hframes)

end Scope

end ScalarScript
