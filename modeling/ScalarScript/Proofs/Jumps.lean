import ScalarScript.Proofs.Parser.Program
import ScalarScript.Proofs.Run.Outcome
import ScalarScript.Proofs.Tree

/-!
# `ScalarScript.Proofs.Jumps`: `break` and `continue` stay in their loop

A parser counts the loops around the current token. When it fails inside
of a loop the count stays as it was, and the next program that is read
with the same parser starts with a count that is too high. This does no
harm, because the body of a function is read with a count of 0: every
program that a parser gives has a loop around each `break` and `continue`,
whatever the parser has read before.

`Stmt.JumpsOut s` says that a `break` or a `continue` stands in `s` with no
loop of `s` around it. Only such a statement can end with one of these
two signals (`Stmt.jumpsOut_of_exec`), and no statement in the body of a
function is one. So a body ends by `return`, or each of its statements is
run through; this is `jumps_stay_inside`.
-/

set_option autoImplicit false

namespace ScalarScript

/-! ### Reading again -/

/-- The parser behind a number of programs, whatever came of them. -/
def Parser.afterPrograms {σ : Type} [TokenSource σ] : Nat → Parser σ → Parser σ
  | 0, p => p
  | n + 1, p => afterPrograms n p.program.2

/-- The program that the parser of a text gives when it has been asked for
one `n` times before. -/
def Program.attempt (text : String) (limit n : Nat) : Except ParseError Program :=
  match Parser.start (Scanner.ofString text limit) with
  | .ok p => (p.afterPrograms n).program.1
  | .error e => .error e

/-- Whatever the parser has read before, the functions that it gives are
well formed. -/
theorem Program.wellFormed_of_attempt {text : String} {limit n : Nat} {program : Program}
    (h : Program.attempt text limit n = .ok program) :
    ∀ f ∈ program.functions, f.WellFormed := by
  unfold Program.attempt at h
  split at h
  · obtain ⟨_, _, _, _, _, _, _, hwell⟩ := (Parser.program_iff _ _).mp h
    exact hwell
  · cases h

/-! ### Jumps out of a statement -/

/-- A `break` or a `continue` stands in the statement, and no loop of the
statement is around it. -/
inductive Stmt.JumpsOut : Stmt → Prop
  | breakStmt {p : Position} : JumpsOut (.breakStmt p)
  | continueStmt {p : Position} : JumpsOut (.continueStmt p)
  | thenBody {c : Expr} {body : Stmt} {elseBody : Option Stmt} {p : Position} :
      JumpsOut body → JumpsOut (.ifStmt c body elseBody p)
  | elseBody {c : Expr} {thenBody body : Stmt} {p : Position} :
      JumpsOut body → JumpsOut (.ifStmt c thenBody (some body) p)
  | block {body : Stmt} {ss : List Stmt} {p : Position} :
      body ∈ ss → JumpsOut body → JumpsOut (.block ss p)

/-- If all jumps stay inside of a list of statements, they stay inside of
each one. -/
theorem jumpsStay_of_mem {around : Bool} {s : Stmt} {ss : List Stmt}
    (h : jumpsStayAll around ss = true) (hs : s ∈ ss) : s.jumpsStay around = true := by
  induction ss with
  | nil => cases hs
  | cons b ss ih =>
    rw [jumpsStayAll, Bool.and_eq_true] at h
    rcases List.mem_cons.mp hs with rfl | hs
    · exact h.1
    · exact ih h.2 hs

/-- A statement with a jump out of it does not keep its jumps inside. -/
theorem Stmt.JumpsOut.jumpsStay_eq_false {s : Stmt} (h : s.JumpsOut) :
    s.jumpsStay false = false := by
  induction h with
  | breakStmt => rfl
  | continueStmt => rfl
  | thenBody _ ih => rw [Stmt.jumpsStay, ih, Bool.false_and]
  | elseBody _ ih => rw [Stmt.jumpsStay, jumpsStayOptional, ih, Bool.and_false]
  | block hbody _ ih =>
    rw [Stmt.jumpsStay, Bool.eq_false_iff]
    intro hall
    rw [jumpsStay_of_mem hall hbody] at ih
    cases ih

/-- No statement of a function that is well formed jumps out. -/
theorem FunctionDecl.WellFormed.not_jumpsOut {f : FunctionDecl} (h : f.WellFormed) {s : Stmt}
    (hs : s ∈ f.body) : ¬ s.JumpsOut := by
  intro hjumps
  have hstay := jumpsStay_of_mem h.jumps_stay hs
  rw [hjumps.jumpsStay_eq_false] at hstay
  cases hstay

/-! ### Signals -/

/-- The signals of `break` and `continue`. -/
def Signal.isJump : Signal → Bool
  | .breaking | .continuing => true
  | .through | .returning _ => false

section

variable {call : Caller} {fuel : Nat} {f f' : Frame} {signal : Signal} {t t' : Terminal}

/-- A loop keeps the jumps of its body to itself. -/
theorem rounds_isJump {test : Frame → Run RuntimeError Bool}
    {body : Frame → Run RuntimeError (Frame × Signal)} (n : Nat)
    (h : rounds test body n f t = .ok (f', signal) t') : signal.isJump = false := by
  induction n generalizing f t with
  | zero => cases h
  | succ n ih =>
    rw [rounds_succ] at h
    obtain ⟨b, t₁, -, h⟩ := (Run.bind_eq_ok_iff _ _ _ _ _).mp h
    cases b with
    | false =>
      obtain ⟨hend, -⟩ := (Run.pure_eq_ok_iff _ _ _ _).mp h
      cases hend
      rfl
    | true =>
      obtain ⟨⟨g, inner⟩, t₂, -, h⟩ := (Run.bind_eq_ok_iff _ _ _ _ _).mp h
      cases inner with
      -- There is another round, behind a `continue` as behind the end of the body.
      | through | continuing => exact ih h
      | breaking | returning v =>
        obtain ⟨hend, -⟩ := (Run.pure_eq_ok_iff _ _ _ _).mp h
        cases hend
        rfl

/-- A sequence of statements jumps if one of them does. -/
theorem exists_exec_of_execAll {ss : List Stmt}
    (h : execAll call fuel ss f t = .ok (f', signal) t') (hjump : signal.isJump = true) :
    ∃ s ∈ ss, ∃ g g' u u', s.exec call fuel g u = .ok (g', signal) u' := by
  induction ss generalizing f t with
  | nil =>
    obtain ⟨hend, -⟩ := (Run.pure_eq_ok_iff _ _ _ _).mp h
    cases hend
    cases hjump
  | cons s ss ih =>
    rw [execAll] at h
    obtain ⟨⟨g, inner⟩, t₁, hs, h⟩ := (Run.bind_eq_ok_iff _ _ _ _ _).mp h
    -- The first statement that is not run through gives the signal of all.
    cases inner with
    | through =>
      obtain ⟨b, hb, hexec⟩ := ih h
      exact ⟨b, by simp [hb], hexec⟩
    | breaking | continuing | returning v =>
      obtain ⟨hend, -⟩ := (Run.pure_eq_ok_iff _ _ _ _).mp h
      cases hend
      exact ⟨s, by simp, _, _, _, _, hs⟩

/-- A statement ends with the signal of `break` or `continue` only if it
has one that no loop of it is around. -/
theorem Stmt.jumpsOut_of_exec (s : Stmt) (h : s.exec call fuel f t = .ok (f', signal) t')
    (hjump : signal.isJump = true) : s.JumpsOut := by
  induction s using Stmt.induction generalizing f f' signal t t' with
  | breakStmt p => exact .breakStmt
  | continueStmt p => exact .continueStmt
  | ifStmt c thenBody elseBody p hthen helse =>
    rw [Stmt.exec] at h
    obtain ⟨b, t₁, -, h⟩ := (Run.bind_eq_ok_iff _ _ _ _ _).mp h
    cases b with
    | true => exact .thenBody (hthen h hjump)
    | false =>
      cases elseBody with
      | none => simp_all [execOptional, Signal.isJump]
      | some body => exact .elseBody (helse body rfl h hjump)
  | whileStmt c body p _ =>
    -- What the body does is of no interest: no loop ends with a jump.
    rw [Stmt.exec] at h
    rw [rounds_isJump fuel h] at hjump
    cases hjump
  | block body p hbody =>
    rw [Stmt.exec] at h
    obtain ⟨b, hb, _, _, _, _, hexec⟩ := exists_exec_of_execAll h hjump
    exact .block hb (hbody b hb hexec hjump)
  -- All other statements are run through or return.
  | declare name type initial p | assign name e p =>
    rw [Stmt.exec] at h
    obtain ⟨g, t₁, -, h⟩ := (Run.bind_eq_ok_iff _ _ _ _ _).mp h
    simp_all [Signal.isJump]
  | returnStmt value p =>
    cases value with
    | none => simp_all [Stmt.exec, Signal.isJump]
    | some e =>
      rw [Stmt.exec] at h
      obtain ⟨v, t₁, -, h⟩ := (Run.bind_eq_ok_iff _ _ _ _ _).mp h
      simp_all [Signal.isJump]
  | call function args p =>
    rw [Stmt.exec] at h
    obtain ⟨vs, t₁, -, h⟩ := (Run.bind_eq_ok_iff _ _ _ _ _).mp h
    obtain ⟨v, t₂, -, h⟩ := (Run.bind_eq_ok_iff _ _ _ _ _).mp h
    simp_all [Signal.isJump]

/-- `RunsThrough call fuel ss f t f' t'`: each of the statements is
executed in turn and run through, from the first to the last. -/
inductive RunsThrough (call : Caller) (fuel : Nat) :
    List Stmt → Frame → Terminal → Frame → Terminal → Prop
  | nil {f : Frame} {t : Terminal} : RunsThrough call fuel [] f t f t
  | cons {s : Stmt} {ss : List Stmt} {f g f' : Frame} {t u t' : Terminal} :
      s.exec call fuel f t = .ok (g, .through) u → RunsThrough call fuel ss g u f' t' →
      RunsThrough call fuel (s :: ss) f t f' t'

/-- Statements that end with no signal ran off their end. -/
theorem runsThrough_of_execAll {ss : List Stmt}
    (h : execAll call fuel ss f t = .ok (f', .through) t') : RunsThrough call fuel ss f t f' t' := by
  induction ss generalizing f t with
  | nil =>
    obtain ⟨hend, ht⟩ := (Run.pure_eq_ok_iff _ _ _ _).mp h
    cases hend
    cases ht
    exact .nil
  | cons s ss ih =>
    rw [execAll] at h
    obtain ⟨⟨g, inner⟩, t₁, hs, h⟩ := (Run.bind_eq_ok_iff _ _ _ _ _).mp h
    cases inner with
    | through => exact .cons hs (ih h)
    | breaking | continuing | returning v =>
      obtain ⟨hend, -⟩ := (Run.pure_eq_ok_iff _ _ _ _).mp h
      cases hend

end

/-- Jumps stay inside of their function, whatever a parser has read
before. In every program that the parser of a text gives, at whichever
attempt, no statement of a function jumps out of it. And the body of each
function, executed with any calls, any rounds and in any frame, either
returns or runs off its end. -/
theorem Program.jumps_stay_inside (text : String) (limit n : Nat) (program : Program)
    (h : Program.attempt text limit n = .ok program) (f : FunctionDecl)
    (hf : f ∈ program.functions) :
    (∀ s ∈ f.body, ¬ s.JumpsOut) ∧
    ∀ call fuel frame frame' signal t t',
      execAll call fuel f.body frame t = .ok (frame', signal) t' →
      (∃ v, signal = .returning v) ∨
        signal = .through ∧ RunsThrough call fuel f.body frame t frame' t' := by
  have hwell : f.WellFormed := Program.wellFormed_of_attempt h f hf
  refine ⟨fun s hs => hwell.not_jumpsOut hs, ?_⟩
  intro call fuel frame frame' signal t t' hexec
  cases hjump : signal.isJump with
  | true =>
    obtain ⟨s, hs, _, _, _, _, hexec⟩ := exists_exec_of_execAll hexec hjump
    exact absurd (s.jumpsOut_of_exec hexec hjump) (hwell.not_jumpsOut hs)
  | false =>
    cases signal with
    | returning v => exact .inl ⟨v, rfl⟩
    | through => exact .inr ⟨rfl, runsThrough_of_execAll hexec⟩
    | breaking | continuing => cases hjump

/-- The first attempt at this text fails at `00`, inside of the loop of
`f`. The second one goes on with the token before and reads `g`, whose
loop ends by `break`. -/
theorem Program.jumps_stay_inside_second_attempt :
    let text := "f()returns int\x7bwhile(x)g 00()returns int\x7bwhile(1<2)break;\x7d"
    let loop : Stmt := .whileStmt (.comparison .less (.int 1 ⟨1, 48, 48⟩) (.int 2 ⟨1, 50, 50⟩)
      ⟨1, 49, 49⟩) (.breakStmt ⟨1, 52, 52⟩) ⟨1, 42, 42⟩
    let g : FunctionDecl := ⟨"g", [], .int, [loop], ⟨1, 41, 41⟩, ⟨1, 24, 24⟩⟩
    let call : Caller := fun _ _ _ => pure .nothing
    Program.attempt text 0 0 =
      .error (.token (.malformedNumber (.leadingZeros "00") ⟨1, 26, 26⟩)) ∧
    Program.attempt text 0 1 = .ok (empty.afterOffers [g]) ∧
    ¬ loop.JumpsOut ∧
    RunsThrough call 1 g.body (.enter "g" 1) (.scripted []) (.enter "g" 1) (.scripted []) := by
  intro text loop g call
  have hfirst : Program.attempt text 0 0 =
      .error (.token (.malformedNumber (.leadingZeros "00") ⟨1, 26, 26⟩)) := by
    subst text
    with_unfolding_all rfl
  have hsecond : Program.attempt text 0 1 = .ok (empty.afterOffers [g]) := by
    subst text
    with_unfolding_all rfl
  have hexec : execAll call 1 g.body (.enter "g" 1) (.scripted []) =
      .ok (.enter "g" 1, .through) (.scripted []) := rfl
  have hmem : g ∈ (empty.afterOffers [g]).functions := List.mem_singleton.mpr rfl
  obtain ⟨hjumps, hends⟩ := Program.jumps_stay_inside text 0 1 _ hsecond g hmem
  refine ⟨hfirst, hsecond, hjumps loop (by simp [g]), ?_⟩
  rcases hends call 1 _ _ _ _ _ hexec with ⟨v, hv⟩ | ⟨-, hruns⟩
  · cases hv
  · exact hruns

end ScalarScript
