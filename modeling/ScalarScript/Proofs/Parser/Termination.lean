import ScalarScript.Proofs.Jumps
import ScalarScript.Proofs.Parser.Progress
import ScalarScript.Proofs.Token.Places

/-!
# `ScalarScript.Proofs.Parser.Termination`: every reading ends

The readers of the parser call themselves, and nothing but the tokens
that they read keeps them from doing so for ever. `Reenters body read`
says that a reader is safe: `body again`, in which the calls are a
parameter, gives what `read` gives as soon as `again` answers like `read`
ahead of where the reading starts, whatever it answers elsewhere. So
`read` is the only solution of its own equation. `Progress` lists the
readers that this has to be said of.

A parser can be asked for a program again and again, also after an error.
`calls_le` bounds the calls of the scanner in all of these readings
by the length of the text and one more for each of them.
-/

set_option autoImplicit false

namespace ScalarScript

open Grammar

variable {σ : Type} [TokenSource σ]

namespace Parser

/-! ### What a program leaves -/

/-- Behind a program or an error in it stands a parser that the reading
came to, or the one behind the end of the text. -/
theorem program_leaves (p : Parser σ) :
    p.Stops p.program.2 ∨ ∃ r, p.Consumes 0 r ∧ r.Moves p.program.2 := by
  have hkeeps := functions_keeps p .empty
  unfold program
  generalize functions .empty p = read at hkeeps
  cases hkeeps with
  | error hq => exact .inl hq
  | @ok program q hq hconsumes =>
    have hend : (((Parsed.ok program q hq).andThen fun program q _ =>
        q.expectEnd.map fun _ => program).result).2 = q.expectEnd.result.2 := by
      simp only [Parsed.andThen]
      cases q.expectEnd <;> rfl
    rw [hend]
    unfold expectEnd
    split
    · unfold advance
      split
      · rename_i t rest hnext
        exact .inr ⟨q, hconsumes, t, rest, hnext, rfl⟩
      · rename_i e rest hnext
        exact .inl (.inr ⟨q, e, hconsumes, rfl, hnext⟩)
    · exact .inl (.inl hconsumes)

/-! ### Readers that call themselves -/

/-- `read` is what `body` makes of its own calls `again`, and these are
made only where a further token has been read. -/
structure Reenters {R : Parser σ → Type} (body : ((q : Parser σ) → R q) → (p : Parser σ) → R p)
    (read : (p : Parser σ) → R p) : Prop where
  /-- What is answered at `p` depends only on the answers ahead of `p`. -/
  ahead : ∀ p again, (∀ q, p.Consumes 1 q → again q = read q) → body again p = read p
  /-- Any answers that fulfil the equation are those of `read`. -/
  unique : ∀ again, (∀ p, again p = body again p) → again = read

/-- A reader whose answers depend only on the answers ahead is the only
one that fulfils its equation. -/
theorem Reenters.of_ahead {R : Parser σ → Type}
    {body : ((q : Parser σ) → R q) → (p : Parser σ) → R p} {read : (p : Parser σ) → R p}
    (h : ∀ p again, (∀ q, p.Consumes 1 q → again q = read q) → body again p = read p) :
    Reenters body read where
  ahead := h
  unique := by
    intro again hagain
    funext p
    -- Each token makes the parser smaller, so the parsers ahead come first.
    induction hn : p.size using Nat.strongRecOn generalizing p with
    | ind n ih =>
      rw [hagain p]
      refine h p again fun q hpq => ?_
      have hsize := hpq.size_add_le
      exact ih q.size (by omega) q rfl

/-- Every loop of the parser and every reader that leads back to itself
reads a token before it does so. -/
structure Progress (σ : Type) [TokenSource σ] : Prop where
  functions : Reenters functionsStep fun (p : Parser σ) program => functions program p
  parameters : ∀ function,
    Reenters (parametersStep function) fun (p : Parser σ) before => parametersRest function before p
  /-- The statements of a block in the statement at `top`. -/
  statements : ∀ top : Parser σ,
    Reenters (statementsStep fun (q : Parser σ) (_ : q.size < top.size) => q.statement?)
      (statements fun q _ => q.statement?)
  /-- The further operands of a chain in the expression at `top`. -/
  operands : ∀ (top : Parser σ) (c : Chain),
    let operand : Reader top Expr := levelReader (fun q _ => q.expression?) c.operand
    Reenters (chainStep c.link? operand) (chainRest c.link? operand)
  /-- The further arguments of a call in the expression at `top`. -/
  arguments : ∀ top : Parser σ,
    Reenters (argumentsStep fun (q : Parser σ) (_ : q.size < top.size) => q.expression?)
      (argumentsRest fun q _ => q.expression?)
  expression : Reenters (fun again (p : Parser σ) => ladder (fun q _ => again q) p p.le_refl)
    expression?
  /-- The expressions inside one at any level of precedence. -/
  level : ∀ (top : Parser σ) (l : Level) (nested : NestedReader top Expr) (p : Parser σ) hp,
    (∀ q hq, p.Consumes 1 q → nested q hq = q.expression?) →
    levelReader nested l p hp = levelReader (fun q _ => q.expression?) l p hp
  statement : Reenters (fun again (p : Parser σ) => statementOver (fun q _ => again q) p p.le_refl)
    statement?
  /-- The statements inside a block. -/
  block : ∀ (top : Parser σ) (nested : NestedReader top Stmt) (p : Parser σ) hp,
    (∀ q hq, p.Consumes 1 q → nested q hq = q.statement?) →
    block? nested p hp = block? (fun q _ => q.statement?) p hp
  /-- Whole programs, with at most one token asked for behind the last one. -/
  program : ∀ p : Parser σ, p.Stops p.program.2 ∨ ∃ r, p.Consumes 0 r ∧ r.Moves p.program.2

/-- Every loop and every reader that leads back to itself depends only on
what is read behind a further token. -/
theorem progress : Progress σ where
  -- Each loop is its rounds. A round takes a token before it goes on, so its answer depends only on
  -- the answers ahead, and there `again` is the loop itself.
  functions := by
    refine .of_ahead fun p again hagain => ?_
    funext program
    rw [functions_eq]
    refine (functionsStep_keeps program fun q program hpq => ?_).eq
    rw [hagain q hpq]
    exact functions_keeps q program
  parameters := by
    intro function
    refine .of_ahead fun p again hagain => ?_
    funext before
    rw [parametersRest_eq]
    refine (parametersStep_keeps function before fun q bs hpq => ?_).eq
    rw [hagain q hpq]
    exact parametersRest_keeps function q bs
  statements := by
    intro top
    refine .of_ahead fun p again hagain => ?_
    funext hp
    rw [statements_eq]
    refine (statementsStep_keeps (fun q _ _ => statement?_keeps q) hp fun q hq hpq => ?_).eq
    rw [hagain q hpq]
    exact statements_keeps (fun q _ _ => statement?_keeps q) hq
  operands := by
    intro top c operand
    have hoperand : ∀ p : Parser σ, ReadersKeep p 0 operand operand := fun p =>
      levelReader_keeps (fun q _ _ => expression?_keeps q) c.operand
    refine .of_ahead fun p again hagain => ?_
    funext hp
    rw [chainRest_eq]
    refine (chainStep_keeps c.link? (hoperand p) hp fun q hq hpq => ?_).eq
    rw [hagain q hpq]
    exact chainRest_keeps c.link? (hoperand q) hq
  arguments := by
    intro top
    refine .of_ahead fun p again hagain => ?_
    funext hp
    rw [argumentsRest_eq]
    refine (argumentsStep_keeps (fun q _ _ => expression?_keeps q) hp fun q hq hpq => ?_).eq
    rw [hagain q hpq]
    exact argumentsRest_keeps (fun q _ _ => expression?_keeps q) hq
  -- Expressions and statements call themselves behind the first token of what they are inside of.
  expression := by
    refine .of_ahead fun p again hagain => ?_
    rw [expression?, ladder_eq, ladder_eq]
    refine (levelReader_keeps (fun q _ hpq => ?_) .top p p.le_refl (.refl p)).eq
    rw [hagain q hpq]
    exact expression?_keeps q
  level := by
    intro top l nested p hp hnested
    refine (levelReader_keeps (fun q hq hpq => ?_) l p hp (.refl p)).eq
    rw [hnested q hq hpq]
    exact expression?_keeps q
  statement := by
    refine .of_ahead fun p again hagain => ?_
    rw [statement?]
    refine (statementOver_keeps (fun q _ hpq => ?_) p p.le_refl (.refl p)).eq
    rw [hagain q hpq]
    exact statement?_keeps q
  block := by
    intro top nested p hp hnested
    refine (block?_keeps (fun q hq hpq => ?_) p hp (.refl p)).eq
    rw [hnested q hq hpq]
    exact statement?_keeps q
  program := program_leaves

end Parser

/-! ### Calls of the scanner -/

namespace Scanner

/-- A token that is not the end lies behind the scanner. -/
theorem passes_of_next {s s' : Scanner} {t : Token} (h : s.next = (.ok t, s'))
    (ht : t.lexeme ≠ .endOfText) : ∃ cs, cs ≠ [] ∧ s.cursor.Passes cs s'.cursor := by
  obtain ⟨-, ⟨-, hend⟩ | ⟨spelling, hpasses, hspells⟩⟩ := next_eq_ok h
  · exact absurd hend ht
  · have hall := (s.cursor.passes_skip Text.isBlank).trans hpasses
    exact ⟨_, by simp [hspells.ne_nil], hall⟩

/-- An error uses up a character too. -/
theorem size_lt_of_next_error {s s' : Scanner} {e : TokenError} (h : s.next = (.error e, s')) :
    s'.size < s.size := by
  have hskip := s.cursor.length_skip_le Text.isBlank
  by_cases hrest : (s.cursor.skip Text.isBlank).rest = []
  · rw [next_of_nil hrest] at h
    cases h
  · have hlt := length_lexemeAt_lt s.limit hrest
    have hs' : s' = s.next.2 := by rw [h]
    rw [hs']
    show (lexemeAt s.limit (s.cursor.skip Text.isBlank)).2.rest.length < s.cursor.rest.length
    omega

end Scanner

namespace Parser

/-- As many calls as tokens lead from one parser to the other. -/
theorem Reads.afterCalls_eq {p q : Parser Scanner} {ts : List Token} (h : p.Reads ts q) :
    q.source = p.source.afterCalls ts.length := by
  induction ts generalizing p with
  | nil =>
    rw [reads_nil] at h
    rw [h]
    rfl
  | cons t ts ih =>
    obtain ⟨-, -, r, ⟨u, rest, hnext, rfl⟩, hrest⟩ := h
    have hafter : p.source.next.2 = rest := congrArg Prod.snd hnext
    rw [ih hrest, List.length_cons, Scanner.afterCalls, hafter]

/-- Consuming tokens takes at most as many calls of the scanner as it
leads nearer to the end. -/
theorem Consumes.calls {p q : Parser Scanner} {k : Nat} (h : p.Consumes k q) :
    ∃ calls, q.source = p.source.afterCalls calls ∧ calls + q.size ≤ p.size := by
  obtain ⟨ts, -, hreads⟩ := h
  have hsize := hreads.size_add_length_le
  have hloops : (p.withLoops q.loops).size = p.size := rfl
  exact ⟨ts.length, hreads.afterCalls_eq, by omega⟩

/-- One program takes at most one call more than what it makes the parser
smaller by. That call is the one behind the end of the text. -/
theorem program_calls (p : Parser Scanner) :
    ∃ calls, p.program.2.source = p.source.afterCalls calls ∧
      calls + p.program.2.size ≤ p.size + 1 := by
  -- The reading stopped at a token, or at one that is in error, or behind the end.
  rcases p.program_leaves with (hq | ⟨r, e, hr, hcurrent, hnext⟩) | ⟨r, hr, t, rest, hnext, hq⟩
  · obtain ⟨calls, hsource, hle⟩ := hq.calls
    exact ⟨calls, hsource, by omega⟩
  · obtain ⟨calls, hsource, hle⟩ := hr.calls
    have hlt : p.program.2.source.size < r.source.size := Scanner.size_lt_of_next_error hnext
    have hafter : r.source.next.2 = p.program.2.source := congrArg Prod.snd hnext
    refine ⟨calls + 1, ?_, ?_⟩
    · rw [Scanner.afterCalls_add, ← hsource, ← hafter]
      rfl
    · simp only [size, hcurrent, TokenSource.size] at hle ⊢
      omega
  · obtain ⟨calls, hsource, hle⟩ := hr.calls
    have hlt : rest.size + t.weight ≤ r.source.size := Scanner.size_next_add_weight_le hnext
    have hafter : r.source.next.2 = rest := congrArg Prod.snd hnext
    rw [hq]
    refine ⟨calls + 1, ?_, ?_⟩
    · rw [Scanner.afterCalls_add, ← hsource, ← hafter]
      rfl
    · simp only [size, TokenSource.size] at hle ⊢
      omega

/-- After any number of programs the scanner has been called at most once
more per program than there was to read. -/
theorem afterPrograms_calls (n : Nat) (p : Parser Scanner) :
    ∃ calls, (p.afterPrograms n).source = p.source.afterCalls calls ∧
      calls + (p.afterPrograms n).size ≤ p.size + n := by
  induction n generalizing p with
  | zero => exact ⟨0, rfl, by simp [afterPrograms]⟩
  | succ n ih =>
    obtain ⟨calls, hsource, hle⟩ := p.program_calls
    obtain ⟨calls', hsource', hle'⟩ := ih p.program.2
    refine ⟨calls + calls', ?_, ?_⟩
    · rw [Scanner.afterCalls_add, ← hsource, afterPrograms, hsource']
    · rw [afterPrograms]
      omega

/-- The calls of the scanner of a text in any number of readings. -/
theorem calls_le {text : String} {limit : Nat} {p : Parser Scanner}
    (h : Parser.start (Scanner.ofString text limit) = .ok p) (n : Nat) :
    ∃ calls, calls ≤ text.length + n + 1 ∧
      (p.afterPrograms n).source = (Scanner.ofString text limit).afterCalls calls := by
  unfold Parser.start at h
  split at h
  · rename_i t rest hnext
    obtain rfl := Except.ok.inj h
    obtain ⟨calls, hsource, hle⟩ := afterPrograms_calls n ⟨t, rest, 0⟩
    have hfirst : rest.size + t.weight ≤ (Scanner.ofString text limit).size :=
      Scanner.size_next_add_weight_le hnext
    have htext : (Scanner.ofString text limit).size = text.length := String.length_toList
    have hafter : (Scanner.ofString text limit).next.2 = rest := congrArg Prod.snd hnext
    refine ⟨1 + calls, ?_, ?_⟩
    · simp only [size, TokenSource.size] at hle
      omega
    · rw [hsource, Scanner.afterCalls_add, ← hafter]
      rfl
  · cases h

end Parser

/-- Every reading of every text ends, also when the parser is asked for
further programs, whatever the readings before have given. No reader gets
back to itself without reading a token, a token that is not the end moves
the scanner on in its text, and so its calls are bounded by the length of
the text and the number of programs. -/
theorem parsing_terminates :
    (∀ (σ : Type) [TokenSource σ], Parser.Progress σ) ∧
    (∀ (s s' : Scanner) (t : Token), s.next = (.ok t, s') → t.lexeme ≠ .endOfText →
      ∃ cs, cs ≠ [] ∧ s.cursor.Passes cs s'.cursor) ∧
    ∀ (text : String) (limit n : Nat),
      ((∃ program, Program.attempt text limit n = .ok program) ∨
        ∃ e, Program.attempt text limit n = .error e) ∧
      ∀ p, Parser.start (Scanner.ofString text limit) = .ok p →
        ∃ calls, calls ≤ text.length + n + 1 ∧
          (p.afterPrograms n).source = (Scanner.ofString text limit).afterCalls calls := by
  refine ⟨fun σ _ => Parser.progress, fun s s' t => Scanner.passes_of_next, ?_⟩
  intro text limit n
  refine ⟨?_, fun p hp => Parser.calls_le hp n⟩
  cases Program.attempt text limit n with
  | ok program => exact .inl ⟨program, rfl⟩
  | error e => exact .inr ⟨e, rfl⟩

end ScalarScript
