import ScalarScript.Proofs.Parser.Program

/-!
# `ScalarScript.Proofs.Parser.Progress`: no reader goes in circles

A reader of a construct calls itself, directly in a loop or through the
constructs that are nested in it. Here is what it reads before it does so.

To say where a reader calls itself, its calls are made a parameter: one
round of a loop is a function of the reader `again` of the further rounds
(`chainStep`, `statementsStep`, ...), as a construct already is one of the
reader of nested constructs.

`Parsed.Keeps p k r r'` is about two readings from `p` that make such
calls to different readers. If these give the same answers ahead of `p`,
then the readings are the same. They have read at least `k` tokens when
they end well, and when they fail they stop at a token that they came to
(`Parser.Stops`). Each combinator keeps this, so the proof for a reader
follows its definition. `functions_keeps` says what becomes of a whole
program.
-/

set_option autoImplicit false

namespace ScalarScript

open Grammar

variable {σ : Type} [TokenSource σ] {α β : Type}

/-- The levels below a level of precedence. -/
def Grammar.Level.height : Level → Nat
  | .primary => 0
  | .unary => 1
  | .chain .product => 2
  | .chain .sum => 3
  | .comparison => 4
  | .chain .conjunction => 5
  | .chain .disjunction => 6

/-- The operands of a chain are of a lower level. -/
theorem Grammar.Chain.height_operand_lt (c : Chain) :
    c.operand.height < (Level.chain c).height := by
  cases c <;> decide

/-! ### Tokens that are consumed -/

namespace Parser

/-- Reading from `p` to `q` takes `k` tokens or more, none of which is the
end. The count of loops does not matter. -/
def Consumes (p : Parser σ) (k : Nat) (q : Parser σ) : Prop :=
  ∃ ts, k ≤ ts.length ∧ (p.withLoops q.loops).Reads ts q

/-- Where a reading that starts at `p` may stop in an error: at a parser
that it came to, or there with a source that has just failed to give the
next token. -/
def Stops (p q : Parser σ) : Prop :=
  p.Consumes 0 q ∨ ∃ r e, p.Consumes 0 r ∧ q.current = r.current ∧
    TokenSource.next r.source = (.error e, q.source)

namespace Consumes

variable {p q r : Parser σ} {k m : Nat}

/-- Setting the count of loops consumes nothing. -/
theorem withLoops (p : Parser σ) (n : Nat) : p.Consumes 0 (p.withLoops n) :=
  ⟨[], Nat.le_refl 0, rfl⟩

/-- Staying consumes nothing. -/
theorem refl (p : Parser σ) : p.Consumes 0 p :=
  withLoops p p.loops

/-- What consumes many tokens consumes few. -/
theorem mono (h : p.Consumes k q) (hm : m ≤ k) : p.Consumes m q := by
  obtain ⟨ts, hlength, hreads⟩ := h
  exact ⟨ts, Nat.le_trans hm hlength, hreads⟩

/-- Reading tokens consumes them. -/
theorem of_reads {ts : List Token} (h : p.Reads ts q) : p.Consumes ts.length q := by
  refine ⟨ts, Nat.le_refl _, ?_⟩
  rw [h.loops_eq]
  exact h

/-- Tokens that are consumed one after the other add up. -/
theorem trans (h : p.Consumes k q) (h' : q.Consumes m r) : p.Consumes (k + m) r := by
  obtain ⟨ts, hts, hreads⟩ := h
  obtain ⟨us, hus, hreads'⟩ := h'
  -- The same tokens are read with the count of loops that `r` has.
  have hloops : (p.withLoops r.loops).Reads ts (q.withLoops r.loops) :=
    (withLoops_reads_iff (p.withLoops q.loops) _ r.loops ts).mpr ⟨q, hreads, rfl⟩
  exact ⟨ts ++ us, by rw [List.length_append]; omega, hloops.trans hreads'⟩

/-- Each token that is consumed leads one nearer to the end. -/
theorem size_add_le (h : p.Consumes k q) : q.size + k ≤ p.size := by
  obtain ⟨ts, hlength, hreads⟩ := h
  have hle := hreads.size_add_length_le
  have hsize : (p.withLoops q.loops).size = p.size := rfl
  omega

/-- What follows a token is ahead of it. -/
theorem after (h : p.Consumes 1 q) (h' : q.Consumes m r) : p.Consumes 1 r :=
  (h.trans h').mono (by omega)

end Consumes

/-- Where a later reading stops, the whole stops. -/
theorem Stops.after {p q r : Parser σ} {k : Nat} (h : p.Consumes k q) (h' : q.Stops r) :
    p.Stops r := by
  rcases h' with hr | ⟨s, e, hs, hcurrent, hnext⟩
  · exact .inl ((h.trans hr).mono (Nat.zero_le _))
  · exact .inr ⟨s, e, (h.trans hs).mono (Nat.zero_le _), hcurrent, hnext⟩

end Parser

/-! ### Readings that keep on -/

/-- Two readings from `p` are the same, with at least `k` tokens read if
they end well. -/
inductive Parsed.Keeps (p : Parser σ) (k : Nat) {n : Nat} :
    Parsed σ n α → Parsed σ n α → Prop
  | ok {a : α} {q : Parser σ} {h : q.size < n} :
      p.Consumes k q → Keeps p k (.ok a q h) (.ok a q h)
  | error {e : ParseError} {q : Parser σ} :
      p.Stops q → Keeps p k (.error e q) (.error e q)

/-- A construct is found at `p` in both attempts or in neither. If it is,
at least one token is read; if not, reading goes on from `p`. -/
inductive StartsKeeping (p : Parser σ) {n : Nat} : Attempt σ n α → Attempt σ n α → Prop
  | absent {h : p.size ≤ n} : StartsKeeping p (.absent p h) (.absent p h)
  | found {r r' : Parsed σ n α} : r.Keeps p 1 r' → StartsKeeping p (.found r) (.found r')

/-- What is made of an attempt, in each of its two cases. -/
def Attempt.elim {n : Nat} (o : Attempt σ n α) (absent : (q : Parser σ) → q.size ≤ n → β)
    (found : Parsed σ n α → β) : β :=
  match o with
  | .absent q h => absent q h
  | .found read => found read

namespace Parsed.Keeps

variable {p : Parser σ} {k n : Nat} {r r' : Parsed σ n α}

/-- Two readings that keep on are the same. -/
theorem eq (h : r.Keeps p k r') : r = r' := by
  cases h <;> rfl

/-- An error where reading starts is an error at a token that was come to. -/
theorem failed (e : ParseError) (p : Parser σ) :
    (Parsed.error e p : Parsed σ n α).Keeps p k (.error e p) :=
  .error (.inl (.refl p))

/-- A value without a token keeps on. -/
theorem done (a : α) (p : Parser σ) (h : p.size ≤ n) :
    (Parsed.done a p h).Keeps p 0 (.done a p h) :=
  .ok (.refl p)

/-- A reading that keeps on from a later parser keeps on from an earlier
one. -/
theorem after {q : Parser σ} {m : Nat} (h : r.Keeps q k r') (hq : p.Consumes m q) :
    r.Keeps p k r' := by
  cases h with
  | ok hr => exact .ok ((hq.trans hr).mono (by omega))
  | error hr => exact .error (.after hq hr)

/-- A greater bound changes nothing. -/
theorem within {m : Nat} (h : r.Keeps p k r') (hnm : n ≤ m) :
    (r.within hnm).Keeps p k (r'.within hnm) := by
  cases h with
  | ok hq => exact .ok hq
  | error hq => exact .error hq

/-- At least so many tokens are at least fewer. -/
theorem mono {m : Nat} (h : r.Keeps p k r') (hm : m ≤ k) : r.Keeps p m r' := by
  cases h with
  | ok hq => exact .ok (hq.mono hm)
  | error hq => exact .error hq

/-- The bound of a reading that takes a token may be given up. -/
theorem loose (h : r.Keeps p 1 r') : r.loose.Keeps p 0 r'.loose :=
  (h.mono (Nat.zero_le 1)).within _

/-- Changing the value changes nothing else. -/
theorem map (h : r.Keeps p k r') (f : α → β) : (r.map f).Keeps p k (r'.map f) := by
  cases h with
  | ok hq => exact .ok hq
  | error hq => exact .error hq

/-- Reading on keeps on, if it does so from wherever the first reading
ends. -/
theorem andThen {next next' : α → (q : Parser σ) → q.size < n → Parsed σ (q.size + 1) β}
    (h : r.Keeps p k r')
    (hnext : ∀ a q hq, p.Consumes k q → (next a q hq).Keeps q 0 (next' a q hq)) :
    (r.andThen next).Keeps p k (r'.andThen next') := by
  cases h with
  | error hq => exact .error hq
  | @ok a q hq hconsumes =>
    have hkeeps := hnext a q hq hconsumes
    simp only [Parsed.andThen]
    -- What `next` gives decides all, whatever its bound is.
    generalize next a q hq = s at hkeeps
    generalize next' a q hq = s' at hkeeps
    cases hkeeps with
    | ok hr => exact .ok (hconsumes.trans hr)
    | error hr => exact .error (.after hconsumes hr)

end Parsed.Keeps

namespace StartsKeeping

variable {p : Parser σ} {n : Nat} {o o' : Attempt σ n α}

/-- Two attempts that start alike are the same. -/
theorem eq (h : StartsKeeping p o o') : o = o' := by
  cases h with
  | absent => rfl
  | found hr => rw [hr.eq]

/-- An attempt keeps starting alike if its readings are changed alike. -/
theorem map {f f' : Parsed σ n α → Parsed σ n β} (h : StartsKeeping p o o')
    (hf : ∀ r r', r.Keeps p 1 r' → (f r).Keeps p 1 (f' r')) :
    StartsKeeping p (o.map f) (o'.map f') := by
  cases h with
  | absent => exact .absent
  | found hr => exact .found (hf _ _ hr)

/-- A greater bound changes nothing. -/
theorem within {m : Nat} (h : StartsKeeping p o o') (hnm : n ≤ m) :
    StartsKeeping p (o.within hnm) (o'.within hnm) := by
  cases h with
  | absent => exact .absent
  | found hr => exact .found (hr.within hnm)

/-- A construct that has to be there takes a token, or there is an error
where reading starts. -/
theorem orError (h : StartsKeeping p o o') (missing : Parser σ → ParseError) :
    (o.orError missing).Keeps p 1 (o'.orError missing) := by
  cases h with
  | absent => exact .failed _ p
  | found hr => exact hr

/-- A construct that may be there takes a token or leaves the parser as it
was. -/
theorem optional {o o' : Attempt σ p.size α} (h : StartsKeeping p o o') :
    (p.optional o).Keeps p 0 (p.optional o') := by
  cases h with
  | absent => exact .done _ p p.le_refl
  | found hr => exact (hr.map _).loose

/-- What is made of two attempts keeps on, if it does so in each of the
two cases. -/
theorem elim {k m : Nat} {d d' : (q : Parser σ) → q.size ≤ n → Parsed σ m β}
    {f f' : Parsed σ n α → Parsed σ m β} (h : StartsKeeping p o o')
    (hd : ∀ hp, (d p hp).Keeps p k (d' p hp))
    (hf : ∀ r r', r.Keeps p 1 r' → (f r).Keeps p k (f' r')) :
    (o.elim d f).Keeps p k (o'.elim d' f') := by
  cases h with
  | absent => exact hd _
  | found hr => exact hf _ _ hr

/-- Two attempts are both absent at the parser, or both found. -/
theorem cases (h : StartsKeeping p o o') :
    (∃ hp, o = .absent p hp ∧ o' = .absent p hp) ∨
      ∃ r r', o = .found r ∧ o' = .found r' ∧ r.Keeps p 1 r' := by
  cases h with
  | absent => exact .inl ⟨_, rfl, rfl⟩
  | found hr => exact .inr ⟨_, _, rfl, rfl, hr⟩

/-- An attempt is absent at the parser itself, or found. -/
theorem self_cases (h : StartsKeeping p o o) :
    (∃ hp, o = .absent p hp) ∨ ∃ r, o = .found r ∧ r.Keeps p 1 r := by
  rcases h.cases with ⟨hp, habsent, -⟩ | ⟨r, r', hr, -, hkeeps⟩
  · exact .inl ⟨hp, habsent⟩
  · obtain rfl := hkeeps.eq
    exact .inr ⟨r, hr, hkeeps⟩

end StartsKeeping

namespace Parser

/-- Two readers that read the same wherever `k` tokens or more have been
read since `o`. -/
def ReadersKeep (o : Parser σ) (k : Nat) {P : Parser σ → Prop}
    (reader reader' : (p : Parser σ) → P p → Attempt σ p.size α) : Prop :=
  ∀ q hq, o.Consumes k q → StartsKeeping q (reader q hq) (reader' q hq)

/-- Readers that agree ahead of a parser agree ahead of a later one. -/
theorem ReadersKeep.after {o q : Parser σ} {k m : Nat} {P : Parser σ → Prop}
    {reader reader' : (p : Parser σ) → P p → Attempt σ p.size α}
    (h : ReadersKeep o k reader reader') (hq : o.Consumes m q) : ReadersKeep q k reader reader' := by
  intro r hr hconsumes
  exact h r hr ((hq.trans hconsumes).mono (by omega))

/-- What holds ahead of a parser holds from the next token on. -/
theorem ReadersKeep.ahead {o q : Parser σ} {P : Parser σ → Prop}
    {reader reader' : (p : Parser σ) → P p → Attempt σ p.size α}
    (h : ReadersKeep o 1 reader reader') (hq : o.Consumes 1 q) : ReadersKeep q 0 reader reader' := by
  intro r hr hconsumes
  exact h r hr (hq.after hconsumes)

/-- Readers that agree at a parser and ahead of it agree ahead of it. -/
theorem ReadersKeep.mono {o : Parser σ} {P : Parser σ → Prop}
    {reader reader' : (p : Parser σ) → P p → Attempt σ p.size α}
    (h : ReadersKeep o 0 reader reader') : ReadersKeep o 1 reader reader' := by
  intro q hq hconsumes
  exact h q hq (hconsumes.mono (Nat.zero_le 1))

variable {p : Parser σ}

/-! ### Tokens -/

/-- Moving on takes the current token, unless it is the last. -/
theorem advance_keeps (hweight : p.current.weight = 1) {n : Nat}
    (h : p.size < n + p.current.weight) : (p.advance h).Keeps p 1 (p.advance h) := by
  unfold advance
  split
  · rename_i t rest hnext
    refine .ok ?_
    have hreads : p.Reads [p.current] { p with current := t, source := rest } :=
      ⟨rfl, hweight, _, ⟨t, rest, hnext, rfl⟩, rfl⟩
    exact .of_reads hreads
  · rename_i e rest hnext
    exact .error (.inr ⟨p, e, .refl p, rfl, hnext⟩)

/-- Accepting a token takes it or leaves the parser as it was. -/
theorem accept?_keeps (p : Parser σ) (meaning : Lexeme → Option α) :
    StartsKeeping p (p.accept? meaning) (p.accept? meaning) := by
  unfold accept?
  split
  · rename_i hweight
    cases meaning p.current.lexeme with
    | none => exact .absent
    | some a => exact .found ((advance_keeps hweight _).map _)
  · exact .absent

/-- Accepting a symbol takes it or leaves the parser as it was. -/
theorem acceptSymbol?_keeps (p : Parser σ) (meaning : Symbol → Option α) :
    StartsKeeping p (p.acceptSymbol? meaning) (p.acceptSymbol? meaning) :=
  accept?_keeps p _

/-- One of several symbols takes one token. -/
theorem expectAmong_keeps (p : Parser σ) (choices : List (Symbol × α)) :
    (p.expectAmong choices).Keeps p 1 (p.expectAmong choices) :=
  (acceptSymbol?_keeps p _).orError _

/-- A symbol that has to be there takes one token. -/
theorem expect_keeps (p : Parser σ) (s : Symbol) : (p.expect s).Keeps p 1 (p.expect s) :=
  (expectAmong_keeps p _).map _

/-- Accepting an identifier takes it or leaves the parser as it was. -/
theorem identifier?_keeps (p : Parser σ) : StartsKeeping p p.identifier? p.identifier? := by
  rw [identifier?_eq]
  exact accept?_keeps p _

/-- An identifier that has to be there takes one token. -/
theorem expectIdentifier_keeps (p : Parser σ) :
    p.expectIdentifier.Keeps p 1 p.expectIdentifier :=
  (identifier?_keeps p).orError _

/-! ### Expressions -/

section

variable {top : Parser σ} {operand operand' : Reader top Expr}
  {nested nested' : NestedReader top Expr}

/-- An operand that has to be there takes at least one token. -/
theorem expectOperand_keeps (hoperand : ReadersKeep p 0 operand operand') (operator : Symbol)
    (hp : p.size ≤ top.size) :
    (expectOperand operand operator p hp).Keeps p 1 (expectOperand operand' operator p hp) :=
  (hoperand p hp (.refl p)).orError _

/-- One round of `chainRest`, with the rest of the chain read by `again`. -/
def chainStep (link? : Symbol → Option Link) (operand : Reader top Expr)
    (again : (p : Parser σ) → p.size ≤ top.size → Parsed σ (p.size + 1) (List Expr))
    (p : Parser σ) (hp : p.size ≤ top.size) : Parsed σ (p.size + 1) (List Expr) :=
  (p.acceptSymbol? (withSymbol link?)).elim (.done []) fun linked =>
    .loose <| linked.andThen fun x q hq =>
      have hq' := lt_of_lt_of_le hq hp
      .loose <| (expectOperand operand x.1.1 q (le_of_lt hq')).andThen fun e r hr =>
        have hr' := lt_of_lt_of_le (lt_trans hr hq) hp
        (again r (le_of_lt hr')).map fun es => x.1.2.apply x.2 e :: es

/-- The links of a chain are its rounds. -/
theorem chainRest_eq (link? : Symbol → Option Link) (operand : Reader top Expr) (p : Parser σ)
    (hp : p.size ≤ top.size) :
    chainRest link? operand p hp = chainStep link? operand (chainRest link? operand) p hp := by
  rw [chainRest, chainStep]
  cases p.acceptSymbol? (withSymbol link?) <;> rfl

/-- One round of a chain takes its operator before it reads an operand or
goes on. -/
theorem chainStep_keeps (link? : Symbol → Option Link)
    {again again' : (p : Parser σ) → p.size ≤ top.size → Parsed σ (p.size + 1) (List Expr)}
    (hoperand : ReadersKeep p 0 operand operand') (hp : p.size ≤ top.size)
    (hagain : ∀ q hq, p.Consumes 1 q → (again q hq).Keeps q 0 (again' q hq)) :
    (chainStep link? operand again p hp).Keeps p 0 (chainStep link? operand' again' p hp) := by
  refine (acceptSymbol?_keeps p _).elim (.done [] p) fun linked linked' hlinked => ?_
  refine (hlinked.andThen ?_).loose
  intro x q hq hpq
  refine ((expectOperand_keeps (hoperand.after hpq) x.1.1 _).andThen ?_).loose
  intro e r hr hqr
  exact (hagain r _ (hpq.after hqr)).map _

/-- The links of a chain depend only on the operands that are read from
here on. -/
theorem chainRest_keeps (link? : Symbol → Option Link) {p : Parser σ}
    (hoperand : ReadersKeep p 0 operand operand') (hp : p.size ≤ top.size) :
    (chainRest link? operand p hp).Keeps p 0 (chainRest link? operand' p hp) := by
  rw [chainRest_eq, chainRest_eq]
  refine chainStep_keeps link? hoperand hp ?_
  intro q hq hpq
  have _hsize := hpq.size_add_le
  exact chainRest_keeps link? (hoperand.after hpq) hq
termination_by p.size

/-- A chain takes at least its first operand. -/
theorem chain_keeps (node : List Expr → Position → Expr) (link? : Symbol → Option Link)
    (hoperand : ReadersKeep p 0 operand operand') :
    ReadersKeep p 0 (chain node link? operand) (chain node link? operand') := by
  intro q hq hpq
  refine (hoperand q hq hpq).map fun read read' hread => hread.andThen ?_
  intro first r hr hqr
  exact (chainRest_keeps link? ((hoperand.after hpq).after hqr) _).map _

/-- A comparison takes at least its first sum. -/
theorem comparison_keeps (hoperand : ReadersKeep p 0 operand operand') :
    ReadersKeep p 0 (comparison operand) (comparison operand') := by
  intro q hq hpq
  refine (hoperand q hq hpq).map fun read read' hread => hread.andThen ?_
  intro left r hr hqr
  rcases (acceptSymbol?_keeps r (withSymbol ComparisonOp.ofSymbol?)).self_cases with
    ⟨hr, habsent⟩ | ⟨compared, hfound, hcompared⟩
  · rw [habsent]
    exact .done left r hr
  · rw [hfound]
    refine (hcompared.andThen ?_).loose
    intro x s hs hrs
    have hoperand' := (hoperand.after hpq).after (hqr.trans hrs)
    exact ((expectOperand_keeps hoperand' x.1.1 _).map _).loose

/-- An operator in front of an operand is a token more. -/
theorem unary_keeps (hoperand : ReadersKeep p 0 operand operand') :
    ReadersKeep p 0 (unary operand) (unary operand') := by
  intro q hq hpq
  unfold unary
  rcases (acceptSymbol?_keeps q (withSymbol UnaryOp.ofSymbol?)).self_cases with
    ⟨hq', habsent⟩ | ⟨applied, hfound, happlied⟩
  · rw [habsent]
    exact (hoperand q hq hpq).within hq'
  · rw [hfound]
    refine .found (happlied.andThen ?_)
    intro x r hr hqr
    have hoperand' := (hoperand.after hpq).after hqr
    exact ((expectOperand_keeps hoperand' x.1.1 _).map _).loose

/-- One round of `argumentsRest`. -/
def argumentsStep (nested : NestedReader top Expr)
    (again : (p : Parser σ) → p.size < top.size → Parsed σ (p.size + 1) (List Expr))
    (p : Parser σ) (hp : p.size < top.size) : Parsed σ (p.size + 1) (List Expr) :=
  (p.acceptSymbol? (only .comma)).elim (.done []) fun comma =>
    .loose <| comma.andThen fun _ q hq =>
      have hq' := lt_trans hq hp
      (nested q hq').elim (fun r _ => .error r.missingExpression r) fun read =>
        .loose <| read.andThen fun e r hr => (again r (lt_trans hr hq')).map fun es => e :: es

/-- The further arguments are read in rounds. -/
theorem argumentsRest_eq (nested : NestedReader top Expr) (p : Parser σ) (hp : p.size < top.size) :
    argumentsRest nested p hp = argumentsStep nested (argumentsRest nested) p hp := by
  rw [argumentsRest, argumentsStep]
  cases p.acceptSymbol? (only .comma) with
  | absent => rfl
  | found comma =>
    simp only [Attempt.elim]
    congr 2
    funext x q hq
    cases nested q (lt_trans hq hp) <;> rfl

/-- One round of arguments takes its comma before it reads an argument or
goes on. -/
theorem argumentsStep_keeps
    {again again' : (p : Parser σ) → p.size < top.size → Parsed σ (p.size + 1) (List Expr)}
    (hnested : ReadersKeep p 1 nested nested') (hp : p.size < top.size)
    (hagain : ∀ q hq, p.Consumes 1 q → (again q hq).Keeps q 0 (again' q hq)) :
    (argumentsStep nested again p hp).Keeps p 0 (argumentsStep nested' again' p hp) := by
  refine (acceptSymbol?_keeps p _).elim (.done [] p) fun comma comma' hcomma => ?_
  refine (hcomma.andThen ?_).loose
  intro _ q hq hpq
  refine (hnested q (lt_trans hq hp) hpq).elim (fun _ => .failed _ q) fun read read' hread => ?_
  refine (hread.andThen ?_).loose
  intro e r hr hqr
  exact (hagain r _ (hpq.after hqr)).map _

/-- Further arguments depend only on the expressions that are read behind
a comma. -/
theorem argumentsRest_keeps {p : Parser σ} (hnested : ReadersKeep p 1 nested nested')
    (hp : p.size < top.size) :
    (argumentsRest nested p hp).Keeps p 0 (argumentsRest nested' p hp) := by
  rw [argumentsRest_eq, argumentsRest_eq]
  refine argumentsStep_keeps hnested hp ?_
  intro q hq hpq
  have _hsize := hpq.size_add_le
  exact argumentsRest_keeps (hnested.after hpq) hq
termination_by p.size

/-- Arguments take at least their parenthesis, and expressions are read
only behind it. -/
theorem arguments_keeps (hnested : ReadersKeep p 1 nested nested') (hp : p.size ≤ top.size) :
    (arguments nested p hp).Keeps p 1 (arguments nested' p hp) := by
  refine (expect_keeps p .leftParen).andThen ?_
  intro _ q hq hpq
  have hstarts := hnested q (lt_of_lt_of_le hq hp) hpq
  rcases hstarts.cases with ⟨_, habsent, habsent'⟩ | ⟨read, read', hread, hread', hkeeps⟩
  · simp only [habsent, habsent']
    exact ((expect_keeps q .rightParen).map _).loose
  · simp only [hread, hread']
    refine (hkeeps.andThen ?_).loose
    intro e r hr hqr
    refine (argumentsRest_keeps (hnested.after (hpq.trans hqr)) _).andThen ?_
    intro es s _ _
    exact ((expect_keeps s .rightParen).map _).loose

/-- What follows the first token of a primary expression depends only on
the expressions that are read from there on. -/
theorem primaryRest_keeps (hnested : ReadersKeep p 0 nested nested') (first : PrimaryStart)
    (x : Position) (hp : p.size < top.size) :
    (primaryRest nested first x p hp).Keeps p 0 (primaryRest nested' first x p hp) := by
  cases first with
  | int | float | string => exact .done _ p p.le_refl
  | name s =>
    simp only [primaryRest]
    split
    · exact ((arguments_keeps hnested.mono (le_of_lt hp)).map _).loose
    · exact .done _ p p.le_refl
  | parenthesis =>
    simp only [primaryRest]
    -- The parenthesis has been read, so the inner expression may stand at `p` itself.
    rcases (hnested p hp (.refl p)).cases with
      ⟨_, habsent, habsent'⟩ | ⟨read, read', hread, hread', hkeeps⟩
    · simp only [habsent, habsent']
      exact .failed _ p
    · simp only [hread, hread']
      refine (hkeeps.andThen ?_).loose
      intro e r _ _
      exact ((expect_keeps r .rightParen).map _).loose

/-- A primary expression reads a token before any expression inside it. -/
theorem primary_keeps (hnested : ReadersKeep p 1 nested nested') :
    ReadersKeep p 0 (primary nested) (primary nested') := by
  intro q hq hpq
  rw [primary_eq, primary_eq]
  refine (accept?_keeps q _).map fun started started' hstarted => hstarted.andThen ?_
  intro x r hr hqr
  exact primaryRest_keeps ((hnested.after hpq).ahead hqr) x.1 x.2 _

end

section

variable {top : Parser σ}

/-- The reader of one level, over the reader of nested expressions. -/
def levelReader (nested : NestedReader top Expr) : Level → Reader top Expr
  | .chain c => chain c.node c.link? (levelReader nested c.operand)
  | .comparison => comparison (levelReader nested (.chain .sum))
  | .unary => unary (levelReader nested .primary)
  | .primary => primary nested
termination_by l => l.height
decreasing_by
  · decide
  · decide
  · exact Chain.height_operand_lt c

/-- The levels together are the reader of the top level. -/
theorem ladder_eq (nested : NestedReader top Expr) : ladder nested = levelReader nested .top := by
  simp only [levelReader, Chain.operand, Chain.node, Chain.link?, ladder]

/-- Each level depends only on the nested expressions that are read behind
a token. The induction is on the height of the level. -/
theorem levelReader_keeps {nested nested' : NestedReader top Expr}
    (hnested : ReadersKeep p 1 nested nested') (l : Level) :
    ReadersKeep p 0 (levelReader nested l) (levelReader nested' l) := by
  induction l using levelReader.induct with
  | case1 c ih =>
    rw [levelReader.eq_1, levelReader.eq_1]
    exact chain_keeps c.node c.link? ih
  | case2 ih =>
    rw [levelReader.eq_2, levelReader.eq_2]
    exact comparison_keeps ih
  | case3 ih =>
    rw [levelReader.eq_3, levelReader.eq_3]
    exact unary_keeps ih
  | case4 =>
    rw [levelReader.eq_4, levelReader.eq_4]
    exact primary_keeps hnested

end

/-- An expression takes at least one token, or leaves the parser as it
was. -/
theorem expression?_keeps (p : Parser σ) : StartsKeeping p p.expression? p.expression? := by
  rw [expression?, ladder_eq]
  refine levelReader_keeps ?_ .top p p.le_refl (.refl p)
  intro q _ hpq
  have _hsize := hpq.size_add_le
  exact expression?_keeps q
termination_by p.size

/-- An expression that has to be there takes at least one token. -/
theorem expectExpression_keeps (p : Parser σ) :
    p.expectExpression.Keeps p 1 p.expectExpression :=
  (expression?_keeps p).orError _

/-- The arguments of a call take at least one token. -/
theorem callArguments_keeps (p : Parser σ) : p.callArguments.Keeps p 1 p.callArguments :=
  arguments_keeps (fun q _ _ => expression?_keeps q) p.le_refl

/-! ### Statements -/

section

variable {top : Parser σ} {nested nested' : NestedReader top Stmt}

/-- A condition takes at least one token. -/
theorem condition_keeps (p : Parser σ) (construct : Construct) :
    (p.condition construct).Keeps p 1 (p.condition construct) := by
  refine (expect_keeps p .leftParen).andThen ?_
  intro _ q _ _
  rcases (expression?_keeps q).self_cases with ⟨_, habsent⟩ | ⟨read, hread, hkeeps⟩
  · simp only [habsent]
    exact .failed _ q
  · simp only [hread]
    refine (hkeeps.andThen ?_).loose
    intro e r _ _
    exact ((expect_keeps r .rightParen).map _).loose

/-- One round of `statements`. -/
def statementsStep (nested : NestedReader top Stmt)
    (again : (p : Parser σ) → p.size < top.size → Parsed σ (p.size + 1) (List Stmt))
    (p : Parser σ) (hp : p.size < top.size) : Parsed σ (p.size + 1) (List Stmt) :=
  (nested p hp).elim (.done []) fun read =>
    .loose <| read.andThen fun s q hq => (again q (lt_trans hq hp)).map fun ss => s :: ss

/-- Statements are read in rounds. -/
theorem statements_eq (nested : NestedReader top Stmt) (p : Parser σ) (hp : p.size < top.size) :
    statements nested p hp = statementsStep nested (statements nested) p hp := by
  rw [statements, statementsStep]
  cases nested p hp <;> rfl

/-- One round takes a whole statement before it goes on. -/
theorem statementsStep_keeps
    {again again' : (p : Parser σ) → p.size < top.size → Parsed σ (p.size + 1) (List Stmt)}
    (hnested : ReadersKeep p 0 nested nested') (hp : p.size < top.size)
    (hagain : ∀ q hq, p.Consumes 1 q → (again q hq).Keeps q 0 (again' q hq)) :
    (statementsStep nested again p hp).Keeps p 0 (statementsStep nested' again' p hp) := by
  refine (hnested p hp (.refl p)).elim (.done [] p) fun read read' hread => ?_
  refine (hread.andThen ?_).loose
  intro s q hq hpq
  exact (hagain q _ hpq).map _

/-- Statements depend only on the nested statements that are read from
here on. -/
theorem statements_keeps {p : Parser σ} (hnested : ReadersKeep p 0 nested nested')
    (hp : p.size < top.size) :
    (statements nested p hp).Keeps p 0 (statements nested' p hp) := by
  rw [statements_eq, statements_eq]
  refine statementsStep_keeps hnested hp ?_
  intro q hq hpq
  have _hsize := hpq.size_add_le
  exact statements_keeps (hnested.after hpq) hq
termination_by p.size

/-- A block reads its brace before any statement inside it. -/
theorem block?_keeps (hnested : ReadersKeep p 1 nested nested') :
    ReadersKeep p 0 (block? nested) (block? nested') := by
  intro q hq hpq
  refine (acceptSymbol?_keeps q _).map fun opened opened' hopened => hopened.andThen ?_
  intro x r hr hqr
  refine (statements_keeps ((hnested.after hpq).ahead hqr) _).andThen ?_
  intro ss s _ _
  exact ((expect_keeps s .rightBrace).map _).loose

/-- A body takes at least one token, or leaves the parser as it was. -/
theorem body?_keeps (hnested : ReadersKeep p 0 nested nested') :
    ReadersKeep p 0 (body? nested) (body? nested') := by
  intro q hq hpq
  unfold body?
  -- Without a block, the statement starts where the body does: no token is between them.
  rcases (block?_keeps hnested.mono q (le_of_lt hq) hpq).cases with
    ⟨hq', habsent, habsent'⟩ | ⟨read, read', hread, hread', hkeeps⟩
  · rw [habsent, habsent']
    exact (hnested q hq hpq).within hq'
  · rw [hread, hread']
    exact .found (hkeeps.map _)

/-- A body that has to be there takes at least one token. -/
theorem expectBody_keeps (hnested : ReadersKeep p 0 nested nested') (construct : Construct)
    (hp : p.size < top.size) :
    (expectBody nested construct p hp).Keeps p 1 (expectBody nested' construct p hp) :=
  (body?_keeps hnested p hp (.refl p)).orError _

/-- What follows `if` takes at least one token. -/
theorem ifRest_keeps (hnested : ReadersKeep p 0 nested nested') (x : Position)
    (hp : p.size < top.size) : (ifRest nested x p hp).Keeps p 1 (ifRest nested' x p hp) := by
  refine (condition_keeps p .ifBranch).andThen ?_
  intro c q hq hpq
  refine ((expectBody_keeps (hnested.after hpq) .ifBranch _).andThen ?_).loose
  intro thenBody r hr hqr
  rcases (acceptSymbol?_keeps r (only .elseWord)).self_cases with
    ⟨hr', habsent⟩ | ⟨orElse, hfound, hkeeps⟩
  · rw [habsent]
    exact .done _ r hr'
  · rw [hfound]
    refine (hkeeps.andThen ?_).loose
    intro _ s hs hrs
    have hnested' := (hnested.after hpq).after (hqr.trans hrs)
    exact ((expectBody_keeps hnested' .elseBranch _).map _).loose

/-- Leaving a loop consumes nothing. -/
theorem leavingLoop_keeps {k n : Nat} {read read' : Parsed σ n Stmt} (h : read.Keeps p k read') :
    (leavingLoop read).Keeps p k (leavingLoop read') := by
  cases h with
  | ok hq => exact .ok (hq.trans (.withLoops _ _))
  | error hq => exact .error hq

/-- What follows `while` takes at least one token. -/
theorem whileRest_keeps (hnested : ReadersKeep p 0 nested nested') (x : Position)
    (hp : p.size < top.size) : (whileRest nested x p hp).Keeps p 1 (whileRest nested' x p hp) := by
  refine (condition_keeps p .whileLoop).andThen ?_
  intro c q hq hpq
  -- To enter the loop reads nothing, but the condition in front of it did.
  have hinside : q.Consumes 0 q.enterLoop := .withLoops q _
  have hstarts := body?_keeps (hnested.after hpq) q.enterLoop
    (size_enterLoop_lt (lt_trans hq hp)) hinside
  rcases hstarts.cases with ⟨_, habsent, habsent'⟩ | ⟨read, read', hread, hread', hkeeps⟩
  · simp only [habsent, habsent']
    exact .failed _ q
  · simp only [hread, hread']
    exact ((leavingLoop_keeps (hkeeps.after hinside)).map _).loose

/-- An initial value may be left out. -/
theorem initialValue_keeps (p : Parser σ) : p.initialValue.Keeps p 0 p.initialValue := by
  unfold initialValue
  rcases (acceptSymbol?_keeps p (only .assign)).self_cases with
    ⟨hp, habsent⟩ | ⟨assigned, hfound, hkeeps⟩
  · rw [habsent]
    exact .done none p hp
  · rw [hfound]
    refine (hkeeps.andThen ?_).loose
    intro _ q _ _
    exact ((expectExpression_keeps q).map _).loose

/-- What follows `var` takes at least one token. -/
theorem declareRest_keeps (x : Position) (p : Parser σ) :
    (declareRest x p).Keeps p 1 (declareRest x p) := by
  refine (expectIdentifier_keeps p).andThen ?_
  intro name q _ _
  refine ((expect_keeps q .colon).andThen ?_).loose
  intro _ r _ _
  refine ((expectAmong_keeps r variableTypes).andThen ?_).loose
  intro type s _ _
  exact (initialValue_keeps s).map _

/-- What follows `return` may be nothing. -/
theorem returnRest_keeps (x : Position) (p : Parser σ) :
    (returnRest x p).Keeps p 0 (returnRest x p) :=
  (expression?_keeps p).optional.map _

/-- Nothing has to follow `break` and `continue` but the end of the
statement. -/
theorem loopControl_keeps (keyword : Symbol) (stmt : Position → Stmt) (x : Position)
    (p : Parser σ) : (loopControl keyword stmt x p).Keeps p 0 (loopControl keyword stmt x p) := by
  unfold loopControl
  split
  · exact .failed _ p
  · exact .done _ p p.le_refl

/-- What follows a name takes at least one token. -/
theorem nameRest_keeps (name : String) (x : Position) (p : Parser σ) :
    (nameRest name x p).Keeps p 1 (nameRest name x p) := by
  unfold nameRest
  rcases (acceptSymbol?_keeps p (only .assign)).self_cases with
    ⟨hp, habsent⟩ | ⟨assigned, hfound, hkeeps⟩
  · simp only [habsent]
    split
    · exact ((callArguments_keeps p).map _).within hp
    · exact .failed _ p
  · rw [hfound]
    refine hkeeps.andThen ?_
    intro _ q _ _
    exact ((expectExpression_keeps q).map _).loose

/-- The end of a statement is a token more. -/
theorem closed_keeps {k n : Nat} {read : Parsed σ n Stmt} (h : read.Keeps p k read) :
    (closed read).Keeps p k (closed read) := by
  refine h.andThen ?_
  intro s q _ _
  exact ((expect_keeps q .semicolon).map _).loose

/-- What follows the first token of a statement depends only on the
statements that are read from there on. -/
theorem statementRest_keeps (hnested : ReadersKeep p 0 nested nested') (first : StmtStart)
    (x : Position) (hp : p.size < top.size) :
    (statementRest nested first x p hp).Keeps p 0 (statementRest nested' first x p hp) := by
  cases first with
  | ifWord => exact (ifRest_keeps hnested x hp).loose
  | whileWord => exact (whileRest_keeps hnested x hp).loose
  | varWord => exact (closed_keeps (declareRest_keeps x p)).loose
  | returnWord => exact closed_keeps (returnRest_keeps x p)
  | breakWord => exact closed_keeps (loopControl_keeps .breakWord .breakStmt x p)
  | continueWord => exact closed_keeps (loopControl_keeps .continueWord .continueStmt x p)
  | name s => exact (closed_keeps (nameRest_keeps s x p)).loose

/-- A statement depends only on the nested statements that are read behind
a token. -/
theorem statementOver_keeps (hnested : ReadersKeep p 1 nested nested') :
    ReadersKeep p 0 (statementOver nested) (statementOver nested') := by
  intro q hq hpq
  rw [statementOver_eq, statementOver_eq]
  refine (accept?_keeps q _).map fun started started' hstarted => hstarted.andThen ?_
  intro x r hr hqr
  exact statementRest_keeps ((hnested.after hpq).ahead hqr) x.1 x.2 _

end

/-- A statement takes at least one token, or leaves the parser as it was. -/
theorem statement?_keeps (p : Parser σ) : StartsKeeping p p.statement? p.statement? := by
  rw [statement?]
  refine statementOver_keeps ?_ p p.le_refl (.refl p)
  intro q _ hpq
  have _hsize := hpq.size_add_le
  exact statement?_keeps q
termination_by p.size

/-! ### Programs -/

/-- A parameter takes at least one token, or leaves the parser as it was. -/
theorem parameter?_keeps (p : Parser σ) : StartsKeeping p p.parameter? p.parameter? := by
  refine (identifier?_keeps p).map fun named named' hnamed => hnamed.andThen ?_
  intro name q _ _
  refine ((expect_keeps q .colon).andThen ?_).loose
  intro _ r _ _
  exact ((expectAmong_keeps r variableTypes).map _).loose

/-- One round of `parametersRest`. -/
def parametersStep (function : String)
    (again : (p : Parser σ) → List Parameter → Parsed σ (p.size + 1) (List Parameter))
    (p : Parser σ) (before : List Parameter) : Parsed σ (p.size + 1) (List Parameter) :=
  (p.acceptSymbol? (only .comma)).elim (.done before) fun comma =>
    .loose <| comma.andThen fun _ q _ =>
      q.parameter?.elim (fun r _ => .error (r.unexpected [.identifier]) r) fun read =>
        .loose <| read.andThen fun param r _ =>
          if before.any fun b => b.name == param.name then
            .error (.duplicateParameter function param.name param.position) r
          else again r (before ++ [param])

/-- The further parameters are read in rounds. -/
theorem parametersRest_eq (function : String) (p : Parser σ) (before : List Parameter) :
    parametersRest function before p =
      parametersStep function (fun q bs => parametersRest function bs q) p before := by
  rw [parametersRest, parametersStep]
  cases p.acceptSymbol? (only .comma) with
  | absent => rfl
  | found comma =>
    simp only [Attempt.elim]
    congr 2
    funext x q hq
    cases q.parameter? <;> rfl

/-- One round of parameters takes its comma before it goes on. -/
theorem parametersStep_keeps (function : String)
    {again again' : (p : Parser σ) → List Parameter → Parsed σ (p.size + 1) (List Parameter)}
    (before : List Parameter)
    (hagain : ∀ q bs, p.Consumes 1 q → (again q bs).Keeps q 0 (again' q bs)) :
    (parametersStep function again p before).Keeps p 0
      (parametersStep function again' p before) := by
  refine (acceptSymbol?_keeps p _).elim (.done before p) fun comma comma' hcomma => ?_
  refine (hcomma.andThen ?_).loose
  intro _ q _ hpq
  refine (parameter?_keeps q).elim (fun _ => .failed _ q) fun read read' hread => ?_
  refine (hread.andThen ?_).loose
  intro param r _ hqr
  split
  · exact .failed _ r
  · exact hagain r _ (hpq.after hqr)

/-- The further parameters may be none. -/
theorem parametersRest_keeps (function : String) (p : Parser σ) (before : List Parameter) :
    (parametersRest function before p).Keeps p 0 (parametersRest function before p) := by
  rw [parametersRest_eq]
  refine parametersStep_keeps function before ?_
  intro q bs hpq
  have _hsize := hpq.size_add_le
  exact parametersRest_keeps function q bs
termination_by p.size

/-- The parameters may be none. -/
theorem parameters_keeps (function : String) (p : Parser σ) :
    (p.parameters function).Keeps p 0 (p.parameters function) := by
  unfold parameters
  rcases (parameter?_keeps p).self_cases with ⟨hp, habsent⟩ | ⟨read, hread, hkeeps⟩
  · rw [habsent]
    exact .done [] p hp
  · rw [hread]
    refine (hkeeps.andThen ?_).loose
    intro first q _ _
    exact parametersRest_keeps function q [first]

/-- The body of a function takes at least one token. -/
theorem expectFunctionBody_keeps (name : String) (p : Parser σ) :
    (expectFunctionBody name p).Keeps p 1 (expectFunctionBody name p) :=
  (block?_keeps (fun q _ _ => statement?_keeps q) p p.le_refl (.refl p)).orError _

/-- A function takes at least one token, or leaves the parser as it was. -/
theorem function?_keeps (p : Parser σ) : StartsKeeping p p.function? p.function? := by
  refine (identifier?_keeps p).map fun named named' hnamed => hnamed.andThen ?_
  intro name q _ _
  refine ((expect_keeps q .leftParen).andThen ?_).loose
  intro _ q _ _
  refine (parameters_keeps name.1 q).andThen ?_
  intro params q _ _
  refine ((expect_keeps q .rightParen).andThen ?_).loose
  intro _ q _ _
  refine ((expect_keeps q .returnsWord).andThen ?_).loose
  intro _ q _ _
  refine ((expectAmong_keeps q resultTypes).andThen ?_).loose
  intro result q _ _
  have hbody := (expectFunctionBody_keeps name.1 q.outsideLoops).after (.withLoops q 0)
  exact (hbody.map _).loose

/-- One round of `functions`. -/
def functionsStep (again : (p : Parser σ) → Program → Parsed σ (p.size + 1) Program)
    (p : Parser σ) (program : Program) : Parsed σ (p.size + 1) Program :=
  p.function?.elim (.done program) fun read =>
    .loose <| read.andThen fun f q _ =>
      match program.add f with
      | .error e => .error e q
      | .ok program => again q program

/-- The functions are read in rounds. -/
theorem functions_eq (p : Parser σ) (program : Program) :
    functions program p = functionsStep (fun q program => functions program q) p program := by
  rw [functions, functionsStep]
  cases p.function? <;> rfl

/-- One round takes a whole function before it goes on. -/
theorem functionsStep_keeps
    {again again' : (p : Parser σ) → Program → Parsed σ (p.size + 1) Program} (program : Program)
    (hagain : ∀ q program, p.Consumes 1 q → (again q program).Keeps q 0 (again' q program)) :
    (functionsStep again p program).Keeps p 0 (functionsStep again' p program) := by
  refine (function?_keeps p).elim (.done program p) fun read read' hread => ?_
  refine (hread.andThen ?_).loose
  intro f q _ hpq
  split
  · exact .failed _ q
  · exact hagain q _ hpq

/-- The functions may be none. Wherever reading them stops, it has come
there token by token. -/
theorem functions_keeps (p : Parser σ) (program : Program) :
    (functions program p).Keeps p 0 (functions program p) := by
  rw [functions_eq]
  refine functionsStep_keeps program ?_
  intro q program hpq
  have _hsize := hpq.size_add_le
  exact functions_keeps q program
termination_by p.size

end Parser

end ScalarScript
