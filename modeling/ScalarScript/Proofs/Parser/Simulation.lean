import ScalarScript.Program.Parser
import ScalarScript.Proofs.Alike

/-!
# `ScalarScript.Proofs.Parser.Simulation`: parsers of two sources

Two sources of tokens that give tokens alike are read alike: the results
are programs that are alike or errors that are alike, at every level of
the language. A `Likeness` says what this means. It has a relation between
sources that is kept while tokens are taken, and it says how their tokens
and their errors are related; tokens that are alike have the same lexeme.
It also lets the two sources part where the first gives an error that is
`lost`; then the first parser ends in that error, and nothing is said of
the second.

`Parsed.Agrees` is what becomes of two readings, and `StartsAlike` adds
that a construct starts in both sources or in neither. Each combinator
keeps the two relations, so the proof for a reader follows its
definition. `Program.ofSource_alike` is the result for whole programs.

Read on the diagonal, with one source on both sides, it says of a single
parser which tokens its errors name, and that it gives no error of a
token but those of its source. With equal tokens it says that the results
are equal (`Program.ofSource_agrees`).
-/

set_option autoImplicit false

namespace ScalarScript

variable {σ σ' : Type} [TokenSource σ] [TokenSource σ'] {α β : Type}

/-- How two sources are alike. -/
structure TokenSource.Likeness (σ σ' : Type) [TokenSource σ] [TokenSource σ'] where
  /-- The sources have come to the same point. -/
  source : σ → σ' → Prop
  token : Token → Token → Prop
  /-- The errors of tokens that both sources give. -/
  fault : TokenError → TokenError → Prop
  /-- The errors at which the sources part. -/
  lost : TokenError → Prop
  lexeme_eq : ∀ {t t'}, token t t' → t'.lexeme = t.lexeme
  next : ∀ {s s' t rest}, source s s' → TokenSource.next s = (.ok t, rest) →
    ∃ t' rest', TokenSource.next s' = (.ok t', rest') ∧ token t t' ∧ source rest rest'
  fail : ∀ {s s' e rest}, source s s' → TokenSource.next s = (.error e, rest) →
    lost e ∨ ∃ e' rest', TokenSource.next s' = (.error e', rest') ∧ fault e e'

/-- Two places at which tokens that are alike stand. -/
def TokenSource.Likeness.Place (L : TokenSource.Likeness σ σ') (x x' : Position) : Prop :=
  ∃ l, L.token ⟨l, x⟩ ⟨l, x'⟩

/-- Tokens that are alike, with one name for their lexeme. -/
theorem TokenSource.Likeness.token_lexeme (L : TokenSource.Likeness σ σ') {t t' : Token}
    (h : L.token t t') : L.token ⟨t.lexeme, t.position⟩ ⟨t.lexeme, t'.position⟩ := by
  obtain ⟨l, x⟩ := t
  obtain ⟨l', x'⟩ := t'
  obtain rfl : l' = l := L.lexeme_eq h
  exact h

/-- Two errors that are the same but for their places. An error that names
what it found names a token. -/
inductive ParseError.Alike (L : TokenSource.Likeness σ σ') : ParseError → ParseError → Prop
  | token {e e' : TokenError} : L.fault e e' → Alike L (.token e) (.token e')
  | unexpectedToken {expected : List Kind} {l : Lexeme} {x x' : Position} :
      L.token ⟨l, x⟩ ⟨l, x'⟩ →
      Alike L (.unexpectedToken expected l x) (.unexpectedToken expected l x')
  | missingBody {construct : Construct} {x x' : Position} :
      L.Place x x' → Alike L (.missingBody construct x) (.missingBody construct x')
  | missingCondition {construct : Construct} {x x' : Position} :
      L.Place x x' → Alike L (.missingCondition construct x) (.missingCondition construct x')
  | missingExpression {l : Lexeme} {x x' : Position} :
      L.token ⟨l, x⟩ ⟨l, x'⟩ → Alike L (.missingExpression l x) (.missingExpression l x')
  | missingOperand {operator : Symbol} {l : Lexeme} {x x' : Position} :
      L.token ⟨l, x⟩ ⟨l, x'⟩ →
      Alike L (.missingOperand operator l x) (.missingOperand operator l x')
  | duplicateFunction {name : String} {x x' : Position} :
      L.Place x x' → Alike L (.duplicateFunction name x) (.duplicateFunction name x')
  | duplicateParameter {function name : String} {x x' : Position} :
      L.Place x x' → Alike L (.duplicateParameter function name x) (.duplicateParameter function name x')
  | controlOutsideLoop {keyword : Symbol} {x x' : Position} :
      L.Place x x' → Alike L (.controlOutsideLoop keyword x) (.controlOutsideLoop keyword x')

variable {L : TokenSource.Likeness σ σ'} {V : α → α → Prop} {W : β → β → Prop}

/-- Two parsers at tokens that are alike, of sources that are alike. -/
structure Parser.Matches (L : TokenSource.Likeness σ σ') (p : Parser σ) (p' : Parser σ') :
    Prop where
  current : L.token p.current p'.current
  source : L.source p.source p'.source
  loops_eq : p'.loops = p.loops

/-- Two readings give values in the relation `V` or errors that are alike,
or the first one gives an error that is lost. -/
inductive Parsed.Agrees (L : TokenSource.Likeness σ σ') (V : α → α → Prop) {n n' : Nat} :
    Parsed σ n α → Parsed σ' n' α → Prop
  | ok {a a' : α} {q : Parser σ} {q' : Parser σ'} {h : q.size < n} {h' : q'.size < n'} :
      V a a' → q.Matches L q' → Agrees L V (.ok a q h) (.ok a' q' h')
  | error {e e' : ParseError} {q : Parser σ} {q' : Parser σ'} :
      e.Alike L e' → Agrees L V (.error e q) (.error e' q')
  | lost {e : TokenError} {q : Parser σ} {r' : Parsed σ' n' α} :
      L.lost e → Agrees L V (.error (.token e) q) r'

/-- A construct is found in both sources, with readings that agree, or in
neither, and then reading goes on from parsers that match. -/
inductive StartsAlike (L : TokenSource.Likeness σ σ') (V : α → α → Prop) {n n' : Nat} :
    Attempt σ n α → Attempt σ' n' α → Prop
  | absent {q : Parser σ} {q' : Parser σ'} {h : q.size ≤ n} {h' : q'.size ≤ n'} :
      q.Matches L q' → StartsAlike L V (.absent q h) (.absent q' h')
  | found {r : Parsed σ n α} {r' : Parsed σ' n' α} :
      r.Agrees L V r' → StartsAlike L V (.found r) (.found r')

/-- The same meaning at places that are alike. -/
def TokenSource.Likeness.Same (L : TokenSource.Likeness σ σ') (x x' : α × Position) : Prop :=
  x.1 = x'.1 ∧ L.Place x.2 x'.2

/-! ### Combinators -/

namespace Parsed.Agrees

variable {n n' : Nat} {r : Parsed σ n α} {r' : Parsed σ' n' α}

/-- Values that are related, at parsers that match, agree. -/
theorem done {a a' : α} {p : Parser σ} {p' : Parser σ'} {h : p.size ≤ n} {h' : p'.size ≤ n'}
    (ha : V a a') (hp : p.Matches L p') :
    (Parsed.done a p h).Agrees L V (Parsed.done a' p' h') :=
  .ok ha hp

/-- Greater bounds change nothing. -/
theorem within {m m' : Nat} {hnm : n ≤ m} {hnm' : n' ≤ m'} (h : r.Agrees L V r') :
    (r.within hnm).Agrees L V (r'.within hnm') := by
  cases h with
  | ok ha hq => exact .ok ha hq
  | error he => exact .error he
  | lost he => exact .lost he

/-- Giving the bounds up changes nothing. -/
theorem loose (h : r.Agrees L V r') : r.loose.Agrees L V r'.loose :=
  h.within

/-- Values may be changed on both sides. -/
theorem map {f f' : α → β} (h : r.Agrees L V r') (hf : ∀ {a a'}, V a a' → W (f a) (f' a')) :
    (r.map f).Agrees L W (r'.map f') := by
  cases h with
  | ok ha hq => exact .ok (hf ha) hq
  | error he => exact .error he
  | lost he => exact .lost he

/-- Reading on agrees, if it does so at values that are related and
parsers that match. -/
theorem andThen {next : α → (q : Parser σ) → q.size < n → Parsed σ (q.size + 1) β}
    {next' : α → (q : Parser σ') → q.size < n' → Parsed σ' (q.size + 1) β}
    (h : r.Agrees L V r')
    (hnext : ∀ a a' q q' hq hq', V a a' → q.Matches L q' →
      (next a q hq).Agrees L W (next' a' q' hq')) :
    (r.andThen next).Agrees L W (r'.andThen next') := by
  cases h with
  | error he => exact .error he
  | lost he => exact .lost he
  | @ok a a' q q' hq hq' ha hmatches =>
    have hagrees := hnext a a' q q' hq hq' ha hmatches
    simp only [Parsed.andThen]
    -- What `next` gives decides all, whatever its bounds are.
    generalize next a q hq = s at hagrees
    generalize next' a' q' hq' = s' at hagrees
    cases hagrees with
    | ok ha hmatches => exact .ok ha hmatches
    | error he => exact .error he
    | lost he => exact .lost he

end Parsed.Agrees

namespace StartsAlike

variable {n n' : Nat} {o : Attempt σ n α} {o' : Attempt σ' n' α}

/-- Attempts still start alike if their readings are changed on both
sides. -/
theorem map {f : Parsed σ n α → Parsed σ n β} {f' : Parsed σ' n' α → Parsed σ' n' β}
    (h : StartsAlike L V o o') (hf : ∀ r r', r.Agrees L V r' → (f r).Agrees L W (f' r')) :
    StartsAlike L W (o.map f) (o'.map f') := by
  cases h with
  | absent hq => exact .absent hq
  | found hr => exact .found (hf _ _ hr)

/-- Greater bounds change nothing. -/
theorem within {m m' : Nat} {hnm : n ≤ m} {hnm' : n' ≤ m'} (h : StartsAlike L V o o') :
    StartsAlike L V (o.within hnm) (o'.within hnm') := by
  cases h with
  | absent hq => exact .absent hq
  | found hr => exact .found hr.within

/-- Constructs that have to be there agree, if the errors that they are
missing are alike. -/
theorem orError {missing : Parser σ → ParseError} {missing' : Parser σ' → ParseError}
    (h : StartsAlike L V o o')
    (hmissing : ∀ {q q'}, Parser.Matches L q q' → (missing q).Alike L (missing' q')) :
    (o.orError missing).Agrees L V (o'.orError missing') := by
  cases h with
  | absent hq => exact .error (hmissing hq)
  | found hr => exact hr

/-- Constructs that may be there agree, and are left out on both sides or
on none. -/
theorem optional {p : Parser σ} {p' : Parser σ'} {o : Attempt σ p.size α}
    {o' : Attempt σ' p'.size α} (h : StartsAlike L V o o') :
    (p.optional o).Agrees L (Option.Rel V) (p'.optional o') := by
  cases h with
  | absent hq => exact .ok .none hq
  | found hr => exact (hr.map fun ha => .some ha).loose

/-- The two ways in which a construct can start alike. -/
theorem cases (h : StartsAlike L V o o') :
    (∃ q q' hq hq', o = .absent q hq ∧ o' = .absent q' hq' ∧ q.Matches L q') ∨
      ∃ r r', o = .found r ∧ o' = .found r' ∧ r.Agrees L V r' := by
  cases h with
  | absent hq => exact .inl ⟨_, _, _, _, rfl, rfl, hq⟩
  | found hr => exact .inr ⟨_, _, rfl, rfl, hr⟩

end StartsAlike

/-- A link is put in front of expressions that are alike. -/
theorem Link.apply_alike {R : Position → Position → Prop} (link : Link) {x x' : Position}
    {e e' : Expr} (hx : R x x') (he : e.Alike R e') :
    (link.apply x e).Alike R (link.apply x' e') := by
  cases link with
  | none => exact he
  | some op => exact .unary he hx

namespace Parser

/-- Two readers read alike wherever their parsers match. -/
def ReadAlike (L : TokenSource.Likeness σ σ') (V : α → α → Prop) {P : Parser σ → Prop}
    {P' : Parser σ' → Prop} (reader : (p : Parser σ) → P p → Attempt σ p.size α)
    (reader' : (p : Parser σ') → P' p → Attempt σ' p.size α) : Prop :=
  ∀ p p' hp hp', p.Matches L p' → StartsAlike L V (reader p hp) (reader' p' hp')

variable {p : Parser σ} {p' : Parser σ'} {top : Parser σ} {top' : Parser σ'}

/-! ### Tokens -/

namespace Matches

/-- Parsers that match are at the same lexeme. -/
theorem lexeme_eq (hp : p.Matches L p') : p'.current.lexeme = p.current.lexeme :=
  L.lexeme_eq hp.current

/-- Parsers that match are both at the end or both not. -/
theorem weight_eq (hp : p.Matches L p') : p'.current.weight = p.current.weight := by
  rw [Token.weight, hp.lexeme_eq]
  rfl

/-- Parsers that match are at the same symbol. -/
theorem isAt_eq (hp : p.Matches L p') (s : Symbol) : p'.isAt s = p.isAt s := by
  rw [isAt, isAt, Token.kind, Token.kind, hp.lexeme_eq]

/-- Parsers that match are at places that are alike. -/
theorem place (hp : p.Matches L p') : L.Place p.current.position p'.current.position :=
  ⟨_, L.token_lexeme hp.current⟩

/-- Parsers that match find the same thing that they do not expect. -/
theorem unexpected (hp : p.Matches L p') (expected : List Kind) :
    (p.unexpected expected).Alike L (p'.unexpected expected) := by
  rw [Parser.unexpected, Parser.unexpected, hp.lexeme_eq]
  exact .unexpectedToken (L.token_lexeme hp.current)

/-- Parsers that match miss an operand in the same way. -/
theorem missingOperand (hp : p.Matches L p') (operator : Symbol) :
    (p.missingOperand operator).Alike L (p'.missingOperand operator) := by
  rw [Parser.missingOperand, Parser.missingOperand, hp.lexeme_eq]
  exact .missingOperand (L.token_lexeme hp.current)

/-- Parsers that match miss an expression in the same way. -/
theorem missingExpression (hp : p.Matches L p') :
    p.missingExpression.Alike L p'.missingExpression := by
  rw [Parser.missingExpression, Parser.missingExpression, hp.lexeme_eq]
  exact .missingExpression (L.token_lexeme hp.current)

end Matches

/-- Moving on agrees. This is the one place where the sources are asked
for a token. -/
theorem advance_agrees (hp : p.Matches L p') {n n' : Nat} (h : p.size < n + p.current.weight)
    (h' : p'.size < n' + p'.current.weight) :
    (p.advance h).Agrees L L.token (p'.advance h') := by
  unfold advance
  -- What the first source gives, the second gives too, so its other branch cannot be taken.
  split
  · rename_i t rest hnext
    obtain ⟨t', rest', hnext', ht, hrest⟩ := L.next hp.source hnext
    split
    · rename_i u rest'' hnext''
      obtain ⟨⟨⟩, rfl⟩ := Prod.mk.inj (hnext'.symm.trans hnext'')
      exact .ok hp.current ⟨ht, hrest, hp.loops_eq⟩
    · rename_i e rest'' hnext''
      cases hnext'.symm.trans hnext''
  · rename_i e rest hnext
    rcases L.fail hp.source hnext with he | ⟨e', rest', hnext', he⟩
    · exact .lost he
    · split
      · rename_i u rest'' hnext''
        cases hnext'.symm.trans hnext''
      · rename_i e'' rest'' hnext''
        cases hnext'.symm.trans hnext''
        exact .error (.token he)

/-- A token is accepted on both sides or on none. -/
theorem accept?_alike (hp : p.Matches L p') (meaning : Lexeme → Option α) :
    StartsAlike L L.Same (p.accept? meaning) (p'.accept? meaning) := by
  unfold accept?
  split
  · rename_i hw
    have hw' : p'.current.weight = 1 := by rw [hp.weight_eq, hw]
    rw [dif_pos hw', hp.lexeme_eq]
    cases meaning p.current.lexeme with
    | none => exact .absent hp
    | some a =>
      refine .found ((advance_agrees hp _ _).map ?_)
      intro t t' ht
      exact ⟨rfl, t.lexeme, L.token_lexeme ht⟩
  · rename_i hw
    have hw' : ¬ p'.current.weight = 1 := by rwa [hp.weight_eq]
    rw [dif_neg hw']
    exact .absent hp

/-- A symbol is accepted on both sides or on none. -/
theorem acceptSymbol?_alike (hp : p.Matches L p') (meaning : Symbol → Option α) :
    StartsAlike L L.Same (p.acceptSymbol? meaning) (p'.acceptSymbol? meaning) :=
  accept?_alike hp _

/-- One of several symbols is read alike. -/
theorem expectAmong_agrees (hp : p.Matches L p') (choices : List (Symbol × α)) :
    (p.expectAmong choices).Agrees L L.Same (p'.expectAmong choices) :=
  (acceptSymbol?_alike hp _).orError fun hq => hq.unexpected _

/-- A symbol that has to be there is read alike. -/
theorem expect_agrees (hp : p.Matches L p') (s : Symbol) :
    (p.expect s).Agrees L Eq (p'.expect s) :=
  (expectAmong_agrees hp _).map fun h => h.1

/-- An identifier is accepted on both sides or on none. -/
theorem identifier?_alike (hp : p.Matches L p') :
    StartsAlike L L.Same p.identifier? p'.identifier? := by
  rw [identifier?_eq, identifier?_eq]
  exact accept?_alike hp _

/-- An identifier that has to be there is read alike. -/
theorem expectIdentifier_agrees (hp : p.Matches L p') :
    p.expectIdentifier.Agrees L L.Same p'.expectIdentifier :=
  (identifier?_alike hp).orError fun hq => hq.unexpected _

/-! ### Expressions -/

section

variable {operand : Reader top Expr} {operand' : Reader top' Expr}
  {nested : NestedReader top Expr} {nested' : NestedReader top' Expr}

/-- An operand that has to be there is read alike, if operands are. -/
theorem expectOperand_agrees (hoperand : ReadAlike L (Expr.Alike L.Place) operand operand')
    (operator : Symbol) (hp : p.Matches L p') (h : p.size ≤ top.size)
    (h' : p'.size ≤ top'.size) :
    (expectOperand operand operator p h).Agrees L (Expr.Alike L.Place)
      (expectOperand operand' operator p' h') :=
  (hoperand p p' h h' hp).orError fun hq => hq.missingOperand operator

/-- The links of a chain are read alike, if operands are. The induction is
on the size of the first parser. -/
theorem chainRest_agrees (link? : Symbol → Option Link)
    (hoperand : ReadAlike L (Expr.Alike L.Place) operand operand') {p : Parser σ} {p' : Parser σ'}
    (hp : p.Matches L p') (h : p.size ≤ top.size) (h' : p'.size ≤ top'.size) :
    (chainRest link? operand p h).Agrees L (List.Forall₂ (Expr.Alike L.Place))
      (chainRest link? operand' p' h') := by
  rw [chainRest, chainRest]
  rcases (acceptSymbol?_alike hp (withSymbol link?)).cases with
    ⟨_, _, _, _, habsent, habsent', hrest⟩ | ⟨linked, linked', hfound, hfound', hlinked⟩
  · rw [habsent, habsent']
    exact .done .nil hrest
  · rw [hfound, hfound']
    refine (hlinked.andThen ?_).loose
    rintro ⟨⟨symbol, link⟩, x⟩ ⟨⟨_, _⟩, x'⟩ q q' hq hq' ⟨⟨⟩, hx⟩ hmatches
    refine ((expectOperand_agrees hoperand symbol hmatches _ _).andThen ?_).loose
    intro e e' r r' hr hr' he hmatches
    have _hsize : r.size < p.size := lt_trans hr hq
    exact (chainRest_agrees link? hoperand hmatches _ _).map fun hes =>
      .cons (link.apply_alike hx he) hes
termination_by p.size
decreasing_by exact _hsize

/-- A chain is read alike, if operands are. -/
theorem chain_alike {node : List Expr → Position → Expr} (link? : Symbol → Option Link)
    (hnode : ∀ {es es' x x'}, List.Forall₂ (Expr.Alike L.Place) es es' → L.Place x x' →
      (node es x).Alike L.Place (node es' x'))
    (hoperand : ReadAlike L (Expr.Alike L.Place) operand operand') :
    ReadAlike L (Expr.Alike L.Place) (chain node link? operand) (chain node link? operand') := by
  intro p p' h h' hp
  refine (hoperand p p' h h' hp).map fun read read' hread => hread.andThen ?_
  intro first first' q q' hq hq' hfirst hmatches
  refine (chainRest_agrees link? hoperand hmatches _ _).map ?_
  intro others others' hothers
  cases hothers with
  | nil => exact hfirst
  | cons he hes => exact hnode (.cons hfirst (.cons he hes)) hfirst.position

/-- A comparison is read alike, if sums are. -/
theorem comparison_alike (hoperand : ReadAlike L (Expr.Alike L.Place) operand operand') :
    ReadAlike L (Expr.Alike L.Place) (comparison operand) (comparison operand') := by
  intro p p' h h' hp
  refine (hoperand p p' h h' hp).map fun read read' hread => hread.andThen ?_
  intro left left' q q' hq hq' hleft hmatches
  rcases (acceptSymbol?_alike hmatches (withSymbol ComparisonOp.ofSymbol?)).cases with
    ⟨_, _, _, _, habsent, habsent', hrest⟩ | ⟨compared, compared', hfound, hfound', hcompared⟩
  · rw [habsent, habsent']
    exact .done hleft hrest
  · rw [hfound, hfound']
    refine (hcompared.andThen ?_).loose
    rintro ⟨⟨symbol, op⟩, x⟩ ⟨⟨_, _⟩, x'⟩ r r' hr hr' ⟨⟨⟩, hx⟩ hmatches
    exact ((expectOperand_agrees hoperand symbol hmatches _ _).map fun hright =>
      .comparison hleft hright hx).loose

/-- An operator in front of an operand is read alike, if operands are. -/
theorem unary_alike (hoperand : ReadAlike L (Expr.Alike L.Place) operand operand') :
    ReadAlike L (Expr.Alike L.Place) (unary operand) (unary operand') := by
  intro p p' h h' hp
  unfold unary
  rcases (acceptSymbol?_alike hp (withSymbol UnaryOp.ofSymbol?)).cases with
    ⟨_, _, _, _, habsent, habsent', hrest⟩ | ⟨applied, applied', hfound, hfound', happlied⟩
  · rw [habsent, habsent']
    exact (hoperand _ _ _ _ hrest).within
  · rw [hfound, hfound']
    refine .found (happlied.andThen ?_)
    rintro ⟨⟨symbol, op⟩, x⟩ ⟨⟨_, _⟩, x'⟩ q q' hq hq' ⟨⟨⟩, hx⟩ hmatches
    exact ((expectOperand_agrees hoperand symbol hmatches _ _).map fun he => .unary he hx).loose

/-- Further arguments are read alike, if nested expressions are. -/
theorem argumentsRest_agrees (hnested : ReadAlike L (Expr.Alike L.Place) nested nested')
    {p : Parser σ} {p' : Parser σ'} (hp : p.Matches L p') (h : p.size < top.size)
    (h' : p'.size < top'.size) :
    (argumentsRest nested p h).Agrees L (List.Forall₂ (Expr.Alike L.Place))
      (argumentsRest nested' p' h') := by
  rw [argumentsRest, argumentsRest]
  rcases (acceptSymbol?_alike hp (only .comma)).cases with
    ⟨_, _, _, _, habsent, habsent', hrest⟩ | ⟨comma, comma', hfound, hfound', hcomma⟩
  · rw [habsent, habsent']
    exact .done .nil hrest
  · rw [hfound, hfound']
    refine (hcomma.andThen ?_).loose
    intro _ _ q q' hq hq' _ hmatches
    rcases (hnested q q' (lt_trans hq h) (lt_trans hq' h') hmatches).cases with
      ⟨_, _, _, _, habsent, habsent', hrest⟩ | ⟨read, read', hread, hread', hagrees⟩
    · simp only [habsent, habsent']
      exact .error hrest.missingExpression
    · simp only [hread, hread']
      refine (hagrees.andThen ?_).loose
      intro e e' r r' hr hr' he hmatches
      have _hsize : r.size < p.size := lt_trans hr hq
      exact (argumentsRest_agrees hnested hmatches _ _).map fun hes => .cons he hes
termination_by p.size
decreasing_by exact _hsize

/-- Arguments are read alike, if nested expressions are. -/
theorem arguments_agrees (hnested : ReadAlike L (Expr.Alike L.Place) nested nested')
    (hp : p.Matches L p') (h : p.size ≤ top.size) (h' : p'.size ≤ top'.size) :
    (arguments nested p h).Agrees L (List.Forall₂ (Expr.Alike L.Place))
      (arguments nested' p' h') := by
  refine (expect_agrees hp .leftParen).andThen ?_
  intro _ _ q q' hq hq' _ hmatches
  rcases (hnested q q' (lt_of_lt_of_le hq h) (lt_of_lt_of_le hq' h') hmatches).cases with
    ⟨_, _, _, _, habsent, habsent', hrest⟩ | ⟨read, read', hread, hread', hagrees⟩
  · simp only [habsent, habsent']
    exact ((expect_agrees hrest .rightParen).map fun _ => .nil).within
  · simp only [hread, hread']
    refine (hagrees.andThen ?_).loose
    intro e e' r r' hr hr' he hmatches
    refine (argumentsRest_agrees hnested hmatches _ _).andThen ?_
    intro es es' s s' hs hs' hes hmatches
    exact ((expect_agrees hmatches .rightParen).map fun _ => .cons he hes).loose

/-- What follows the first token of a primary expression is read alike, if
nested expressions are. -/
theorem primaryRest_agrees (hnested : ReadAlike L (Expr.Alike L.Place) nested nested')
    (first : PrimaryStart) {x x' : Position} (hx : L.Place x x') (hp : p.Matches L p')
    (h : p.size < top.size) (h' : p'.size < top'.size) :
    (primaryRest nested first x p h).Agrees L (Expr.Alike L.Place)
      (primaryRest nested' first x' p' h') := by
  cases first with
  | int => exact .ok (.int hx) hp
  | float => exact .ok (.float hx) hp
  | string => exact .ok (.string hx) hp
  | name s =>
    simp only [primaryRest, hp.isAt_eq]
    split
    · exact ((arguments_agrees hnested hp _ _).map fun hargs => .call hargs hx).loose
    · exact .done (.name hx) hp
  | parenthesis =>
    simp only [primaryRest]
    rcases (hnested p p' h h' hp).cases with
      ⟨_, _, _, _, habsent, habsent', hrest⟩ | ⟨read, read', hread, hread', hagrees⟩
    · simp only [habsent, habsent']
      exact .error hrest.missingExpression
    · simp only [hread, hread']
      refine (hagrees.andThen ?_).loose
      intro e e' r r' hr hr' he hmatches
      exact ((expect_agrees hmatches .rightParen).map fun _ => he).loose

/-- A primary expression is read alike, if nested expressions are. -/
theorem primary_alike (hnested : ReadAlike L (Expr.Alike L.Place) nested nested') :
    ReadAlike L (Expr.Alike L.Place) (primary nested) (primary nested') := by
  intro p p' h h' hp
  rw [primary_eq, primary_eq]
  refine (accept?_alike hp PrimaryStart.ofLexeme?).map fun started started' hstarted =>
    hstarted.andThen ?_
  rintro ⟨first, x⟩ ⟨_, x'⟩ q q' hq hq' ⟨⟨⟩, hx⟩ hmatches
  exact primaryRest_agrees hnested first hx hmatches _ _

/-- The levels together read alike, if nested expressions are read alike. -/
theorem ladder_alike (hnested : ReadAlike L (Expr.Alike L.Place) nested nested') :
    ReadAlike L (Expr.Alike L.Place) (ladder nested) (ladder nested') :=
  chain_alike _ .logical <| chain_alike _ .logical <| comparison_alike <|
    chain_alike _ .arithmetic <| chain_alike _ .arithmetic <| unary_alike <| primary_alike hnested

/-- Expressions are read alike. The induction is on the size of the first
parser. -/
theorem expression?_alike {p : Parser σ} {p' : Parser σ'} (hp : p.Matches L p') :
    StartsAlike L (Expr.Alike L.Place) p.expression? p'.expression? := by
  rw [expression?, expression?]
  -- The first parser decides when the recursion ends; the second is as far along.
  exact ladder_alike (fun q q' _hq _ hmatches => expression?_alike hmatches) p p' _ _ hp
termination_by p.size
decreasing_by exact _hq

/-- An expression that has to be there is read alike. -/
theorem expectExpression_agrees (hp : p.Matches L p') :
    p.expectExpression.Agrees L (Expr.Alike L.Place) p'.expectExpression :=
  (expression?_alike hp).orError fun hq => hq.missingExpression

/-- The arguments of a call are read alike. -/
theorem callArguments_agrees (hp : p.Matches L p') :
    p.callArguments.Agrees L (List.Forall₂ (Expr.Alike L.Place)) p'.callArguments :=
  arguments_agrees (fun _ _ _ _ hmatches => expression?_alike hmatches) hp _ _

end

/-! ### Statements -/

section

variable {nested : NestedReader top Stmt} {nested' : NestedReader top' Stmt}

/-- A condition is read alike. -/
theorem condition_agrees (hp : p.Matches L p') (construct : Construct) :
    (p.condition construct).Agrees L (Expr.Alike L.Place) (p'.condition construct) := by
  refine (expect_agrees hp .leftParen).andThen ?_
  intro _ _ q q' hq hq' _ hmatches
  rcases (expression?_alike hmatches).cases with
    ⟨_, _, _, _, habsent, habsent', hrest⟩ | ⟨read, read', hread, hread', hagrees⟩
  · simp only [habsent, habsent']
    exact .error (.missingCondition hrest.place)
  · simp only [hread, hread']
    refine (hagrees.andThen ?_).loose
    intro e e' r r' hr hr' he hmatches
    exact ((expect_agrees hmatches .rightParen).map fun _ => he).loose

/-- Statements are read alike, if nested ones are. The induction is on the
size of the first parser. -/
theorem statements_agrees (hnested : ReadAlike L (Stmt.Alike L.Place) nested nested')
    {p : Parser σ} {p' : Parser σ'} (hp : p.Matches L p') (h : p.size < top.size)
    (h' : p'.size < top'.size) :
    (statements nested p h).Agrees L (List.Forall₂ (Stmt.Alike L.Place))
      (statements nested' p' h') := by
  rw [statements, statements]
  rcases (hnested p p' h h' hp).cases with
    ⟨_, _, _, _, habsent, habsent', hrest⟩ | ⟨read, read', hread, hread', hagrees⟩
  · rw [habsent, habsent']
    exact .done .nil hrest
  · rw [hread, hread']
    refine (hagrees.andThen ?_).loose
    intro s s' q q' _hsize hq' hs hmatches
    exact (statements_agrees hnested hmatches _ _).map fun hss => .cons hs hss
termination_by p.size
decreasing_by exact _hsize

/-- The statements of a block and its place. -/
def BlocksAlike (L : TokenSource.Likeness σ σ') (b b' : List Stmt × Position) : Prop :=
  List.Forall₂ (Stmt.Alike L.Place) b.1 b'.1 ∧ L.Place b.2 b'.2

/-- A block is read alike, if nested statements are. -/
theorem block?_alike (hnested : ReadAlike L (Stmt.Alike L.Place) nested nested') :
    ReadAlike L (BlocksAlike L) (block? nested) (block? nested') := by
  intro p p' h h' hp
  refine (acceptSymbol?_alike hp (only .leftBrace)).map fun opened opened' hopened =>
    hopened.andThen ?_
  rintro ⟨_, x⟩ ⟨_, x'⟩ q q' hq hq' ⟨-, hx⟩ hmatches
  refine (statements_agrees hnested hmatches _ _).andThen ?_
  intro ss ss' r r' hr hr' hss hmatches
  exact ((expect_agrees hmatches .rightBrace).map fun _ => ⟨hss, hx⟩).loose

/-- A body is read alike, if nested statements are. -/
theorem body?_alike (hnested : ReadAlike L (Stmt.Alike L.Place) nested nested') :
    ReadAlike L (Stmt.Alike L.Place) (body? nested) (body? nested') := by
  intro p p' h h' hp
  unfold body?
  rcases (block?_alike hnested p p' (le_of_lt h) (le_of_lt h') hp).cases with
    ⟨_, _, _, _, habsent, habsent', hrest⟩ | ⟨read, read', hread, hread', hagrees⟩
  · rw [habsent, habsent']
    exact (hnested _ _ _ _ hrest).within
  · rw [hread, hread']
    exact .found (hagrees.map fun h => .block h.1 h.2)

/-- A body that has to be there is read alike, if nested statements are. -/
theorem expectBody_agrees (hnested : ReadAlike L (Stmt.Alike L.Place) nested nested')
    (construct : Construct) (hp : p.Matches L p') (h : p.size < top.size)
    (h' : p'.size < top'.size) :
    (expectBody nested construct p h).Agrees L (Stmt.Alike L.Place)
      (expectBody nested' construct p' h') :=
  (body?_alike hnested p p' h h' hp).orError fun hq => .missingBody hq.place

/-- What follows `if` is read alike, if nested statements are. -/
theorem ifRest_agrees (hnested : ReadAlike L (Stmt.Alike L.Place) nested nested')
    {x x' : Position} (hx : L.Place x x') (hp : p.Matches L p') (h : p.size < top.size)
    (h' : p'.size < top'.size) :
    (ifRest nested x p h).Agrees L (Stmt.Alike L.Place) (ifRest nested' x' p' h') := by
  refine (condition_agrees hp .ifBranch).andThen ?_
  intro c c' q q' hq hq' hc hmatches
  refine ((expectBody_agrees hnested .ifBranch hmatches _ _).andThen ?_).loose
  intro thenBody thenBody' r r' hr hr' hthen hmatches
  rcases (acceptSymbol?_alike hmatches (only .elseWord)).cases with
    ⟨_, _, _, _, habsent, habsent', hrest⟩ | ⟨orElse, orElse', hfound, hfound', hagrees⟩
  · rw [habsent, habsent']
    exact .done (.ifStmt hc hthen .none hx) hrest
  · rw [hfound, hfound']
    refine (hagrees.andThen ?_).loose
    intro _ _ s s' hs hs' _ hmatches
    exact ((expectBody_agrees hnested .elseBranch hmatches _ _).map fun helse =>
      .ifStmt hc hthen (.some helse) hx).loose

/-- Parsers that match still match inside of a loop. -/
theorem Matches.enterLoop (hp : p.Matches L p') : p.enterLoop.Matches L p'.enterLoop :=
  ⟨hp.current, hp.source, congrArg (· + 1) hp.loops_eq⟩

/-- Leaving a loop keeps readings alike. -/
theorem leavingLoop_agrees {n n' : Nat} {read : Parsed σ n Stmt} {read' : Parsed σ' n' Stmt}
    (h : read.Agrees L (Stmt.Alike L.Place) read') :
    (leavingLoop read).Agrees L (Stmt.Alike L.Place) (leavingLoop read') := by
  cases h with
  | ok hs hq => exact .ok hs ⟨hq.current, hq.source, congrArg (· - 1) hq.loops_eq⟩
  | error he => exact .error he
  | lost he => exact .lost he

/-- What follows `while` is read alike, if nested statements are. -/
theorem whileRest_agrees (hnested : ReadAlike L (Stmt.Alike L.Place) nested nested')
    {x x' : Position} (hx : L.Place x x') (hp : p.Matches L p') (h : p.size < top.size)
    (h' : p'.size < top'.size) :
    (whileRest nested x p h).Agrees L (Stmt.Alike L.Place) (whileRest nested' x' p' h') := by
  refine (condition_agrees hp .whileLoop).andThen ?_
  intro c c' q q' hq hq' hc hmatches
  rcases (body?_alike hnested q.enterLoop q'.enterLoop (size_enterLoop_lt (lt_trans hq h))
    (size_enterLoop_lt (lt_trans hq' h')) hmatches.enterLoop).cases with
    ⟨_, _, _, _, habsent, habsent', hrest⟩ | ⟨read, read', hread, hread', hagrees⟩
  · simp only [habsent, habsent']
    exact .error (.missingBody hrest.place)
  · simp only [hread, hread']
    exact ((leavingLoop_agrees hagrees).map fun hbody => .whileStmt hc hbody hx).loose

/-- An initial value is read alike. -/
theorem initialValue_agrees (hp : p.Matches L p') :
    p.initialValue.Agrees L (Option.Rel (Expr.Alike L.Place)) p'.initialValue := by
  unfold initialValue
  rcases (acceptSymbol?_alike hp (only .assign)).cases with
    ⟨_, _, _, _, habsent, habsent', hrest⟩ | ⟨assigned, assigned', hfound, hfound', hagrees⟩
  · rw [habsent, habsent']
    exact .done .none hrest
  · rw [hfound, hfound']
    refine (hagrees.andThen ?_).loose
    intro _ _ q q' hq hq' _ hmatches
    exact ((expectExpression_agrees hmatches).map fun he => .some he).loose

/-- What follows `var` is read alike. -/
theorem declareRest_agrees {x x' : Position} (hx : L.Place x x') (hp : p.Matches L p') :
    (declareRest x p).Agrees L (Stmt.Alike L.Place) (declareRest x' p') := by
  refine (expectIdentifier_agrees hp).andThen ?_
  rintro ⟨name, y⟩ ⟨_, y'⟩ q q' hq hq' ⟨⟨⟩, -⟩ hmatches
  refine ((expect_agrees hmatches .colon).andThen ?_).loose
  intro _ _ r r' hr hr' _ hmatches
  refine ((expectAmong_agrees hmatches variableTypes).andThen ?_).loose
  rintro ⟨type, z⟩ ⟨_, z'⟩ s s' hs hs' ⟨⟨⟩, -⟩ hmatches
  exact (initialValue_agrees hmatches).map fun hinitial => .declare hinitial hx

/-- What follows `return` is read alike. -/
theorem returnRest_agrees {x x' : Position} (hx : L.Place x x') (hp : p.Matches L p') :
    (returnRest x p).Agrees L (Stmt.Alike L.Place) (returnRest x' p') :=
  (expression?_alike hp).optional.map fun hvalue => .returnStmt hvalue hx

/-- A `break` or a `continue` is refused on both sides or on none, since
the counts of loops are the same. -/
theorem loopControl_agrees (keyword : Symbol) {stmt : Position → Stmt} {x x' : Position}
    (hx : L.Place x x') (hstmt : (stmt x).Alike L.Place (stmt x')) (hp : p.Matches L p') :
    (loopControl keyword stmt x p).Agrees L (Stmt.Alike L.Place)
      (loopControl keyword stmt x' p') := by
  unfold loopControl
  rw [hp.loops_eq]
  split
  · exact .error (.controlOutsideLoop hx)
  · exact .done hstmt hp

/-- What follows a name is read alike. -/
theorem nameRest_agrees (name : String) {x x' : Position} (hx : L.Place x x')
    (hp : p.Matches L p') :
    (nameRest name x p).Agrees L (Stmt.Alike L.Place) (nameRest name x' p') := by
  unfold nameRest
  rcases (acceptSymbol?_alike hp (only .assign)).cases with
    ⟨_, _, _, _, habsent, habsent', hrest⟩ | ⟨assigned, assigned', hfound, hfound', hagrees⟩
  · simp only [habsent, habsent', hrest.isAt_eq]
    split
    · exact ((callArguments_agrees hrest).map fun hargs => .call hargs hx).within
    · exact .error (hrest.unexpected _)
  · rw [hfound, hfound']
    refine hagrees.andThen ?_
    intro _ _ q q' hq hq' _ hmatches
    exact ((expectExpression_agrees hmatches).map fun he => .assign he hx).loose

/-- The end of a statement is read alike. -/
theorem closed_agrees {n n' : Nat} {read : Parsed σ n Stmt} {read' : Parsed σ' n' Stmt}
    (h : read.Agrees L (Stmt.Alike L.Place) read') :
    (closed read).Agrees L (Stmt.Alike L.Place) (closed read') := by
  refine h.andThen ?_
  intro s s' q q' hq hq' hs hmatches
  exact ((expect_agrees hmatches .semicolon).map fun _ => hs).loose

/-- What follows the first token of a statement is read alike, if nested
statements are. -/
theorem statementRest_agrees (hnested : ReadAlike L (Stmt.Alike L.Place) nested nested')
    (first : StmtStart) {x x' : Position} (hx : L.Place x x') (hp : p.Matches L p')
    (h : p.size < top.size) (h' : p'.size < top'.size) :
    (statementRest nested first x p h).Agrees L (Stmt.Alike L.Place)
      (statementRest nested' first x' p' h') := by
  cases first with
  | ifWord => exact (ifRest_agrees hnested hx hp h h').loose
  | whileWord => exact (whileRest_agrees hnested hx hp h h').loose
  | varWord => exact (closed_agrees (declareRest_agrees hx hp)).loose
  | returnWord => exact closed_agrees (returnRest_agrees hx hp)
  | breakWord => exact closed_agrees (loopControl_agrees .breakWord hx (.breakStmt hx) hp)
  | continueWord =>
    exact closed_agrees (loopControl_agrees .continueWord hx (.continueStmt hx) hp)
  | name s => exact (closed_agrees (nameRest_agrees s hx hp)).loose

/-- A statement is read alike, if nested ones are. -/
theorem statementOver_alike (hnested : ReadAlike L (Stmt.Alike L.Place) nested nested') :
    ReadAlike L (Stmt.Alike L.Place) (statementOver nested) (statementOver nested') := by
  intro p p' h h' hp
  rw [statementOver_eq, statementOver_eq]
  refine (accept?_alike hp StmtStart.ofLexeme?).map fun started started' hstarted =>
    hstarted.andThen ?_
  rintro ⟨first, x⟩ ⟨_, x'⟩ q q' hq hq' ⟨⟨⟩, hx⟩ hmatches
  exact statementRest_agrees hnested first hx hmatches _ _

/-- Statements are read alike. The induction is on the size of the first
parser. -/
theorem statement?_alike {p : Parser σ} {p' : Parser σ'} (hp : p.Matches L p') :
    StartsAlike L (Stmt.Alike L.Place) p.statement? p'.statement? := by
  rw [statement?, statement?]
  exact statementOver_alike (fun q q' _hq _ hmatches => statement?_alike hmatches) p p' _ _ hp
termination_by p.size
decreasing_by exact _hq

/-- The body of a function is read alike. -/
theorem functionBody?_alike (hp : p.Matches L p') :
    StartsAlike L (BlocksAlike L) p.functionBody? p'.functionBody? :=
  block?_alike (fun _ _ _ _ hmatches => statement?_alike hmatches) p p' _ _ hp

end

/-! ### Programs -/

/-- A parameter is read alike. -/
theorem parameter?_alike (hp : p.Matches L p') :
    StartsAlike L (Parameter.Alike L.Place) p.parameter? p'.parameter? := by
  refine (identifier?_alike hp).map fun named named' hnamed => hnamed.andThen ?_
  rintro ⟨name, x⟩ ⟨_, x'⟩ q q' hq hq' ⟨⟨⟩, hx⟩ hmatches
  refine ((expect_agrees hmatches .colon).andThen ?_).loose
  intro _ _ r r' hr hr' _ hmatches
  exact ((expectAmong_agrees hmatches variableTypes).map fun htype => ⟨rfl, htype.1, hx⟩).loose

/-- Further parameters are read alike. A second parameter of a name is
refused on both sides, since the names are the same. -/
theorem parametersRest_agrees (function : String) {before before' : List Parameter}
    (hbefore : List.Forall₂ (Parameter.Alike L.Place) before before') {p : Parser σ}
    {p' : Parser σ'} (hp : p.Matches L p') :
    (parametersRest function before p).Agrees L (List.Forall₂ (Parameter.Alike L.Place))
      (parametersRest function before' p') := by
  rw [parametersRest, parametersRest]
  rcases (acceptSymbol?_alike hp (only .comma)).cases with
    ⟨_, _, _, _, habsent, habsent', hrest⟩ | ⟨comma, comma', hfound, hfound', hcomma⟩
  · rw [habsent, habsent']
    exact .done hbefore hrest
  · rw [hfound, hfound']
    refine (hcomma.andThen ?_).loose
    intro _ _ q q' hq hq' _ hmatches
    rcases (parameter?_alike hmatches).cases with
      ⟨_, _, _, _, habsent, habsent', hrest⟩ | ⟨read, read', hread, hread', hagrees⟩
    · simp only [habsent, habsent']
      exact .error (hrest.unexpected _)
    · simp only [hread, hread']
      refine (hagrees.andThen ?_).loose
      intro param param' r r' hr hr' hparam hmatches
      have _hsize : r.size < p.size := lt_trans hr hq
      rw [Parameter.any_name_eq hbefore, hparam.name_eq]
      split
      · exact .error (.duplicateParameter hparam.position)
      · exact parametersRest_agrees function (List.rel_append hbefore (.cons hparam .nil)) hmatches
termination_by p.size
decreasing_by exact _hsize

/-- The parameters are read alike. -/
theorem parameters_agrees (function : String) (hp : p.Matches L p') :
    (p.parameters function).Agrees L (List.Forall₂ (Parameter.Alike L.Place))
      (p'.parameters function) := by
  unfold parameters
  rcases (parameter?_alike hp).cases with
    ⟨_, _, _, _, habsent, habsent', hrest⟩ | ⟨read, read', hread, hread', hagrees⟩
  · rw [habsent, habsent']
    exact .done .nil hrest
  · rw [hread, hread']
    refine (hagrees.andThen ?_).loose
    intro first first' q q' hq hq' hfirst hmatches
    exact parametersRest_agrees function (.cons hfirst .nil) hmatches

/-- The body of a function that has to be there is read alike. -/
theorem expectFunctionBody_agrees (name : String) (hp : p.Matches L p') :
    (expectFunctionBody name p).Agrees L (BlocksAlike L) (expectFunctionBody name p') :=
  (functionBody?_alike hp).orError fun hq => .missingBody hq.place

/-- A function is read alike. -/
theorem function?_alike (hp : p.Matches L p') :
    StartsAlike L (FunctionDecl.Alike L.Place) p.function? p'.function? := by
  refine (identifier?_alike hp).map fun named named' hnamed => hnamed.andThen ?_
  rintro ⟨name, x⟩ ⟨_, x'⟩ q q' _ _ ⟨⟨⟩, hx⟩ hmatches
  refine ((expect_agrees hmatches .leftParen).andThen ?_).loose
  intro _ _ q q' _ _ _ hmatches
  refine (parameters_agrees name hmatches).andThen ?_
  intro params params' q q' _ _ hparams hmatches
  refine ((expect_agrees hmatches .rightParen).andThen ?_).loose
  intro _ _ q q' _ _ _ hmatches
  refine ((expect_agrees hmatches .returnsWord).andThen ?_).loose
  intro _ _ q q' _ _ _ hmatches
  refine ((expectAmong_agrees hmatches resultTypes).andThen ?_).loose
  rintro ⟨result, y⟩ ⟨_, y'⟩ q q' _ _ ⟨⟨⟩, -⟩ hmatches
  have houtside : q.outsideLoops.Matches L q'.outsideLoops :=
    ⟨hmatches.current, hmatches.source, rfl⟩
  exact ((expectFunctionBody_agrees name houtside).map fun hbody =>
    ⟨rfl, hparams, rfl, hbody.1, hbody.2, hx⟩).loose

/-- The functions are read alike. A second function of a name is refused
on both sides, since the names are the same. -/
theorem functions_agrees {program program' : Program} (hprogram : program.Alike L.Place program')
    {p : Parser σ} {p' : Parser σ'} (hp : p.Matches L p') :
    (functions program p).Agrees L (Program.Alike L.Place) (functions program' p') := by
  rw [functions, functions]
  rcases (function?_alike hp).cases with
    ⟨_, _, _, _, habsent, habsent', hrest⟩ | ⟨read, read', hread, hread', hagrees⟩
  · rw [habsent, habsent']
    exact .done hprogram hrest
  · rw [hread, hread']
    refine (hagrees.andThen ?_).loose
    intro f f' q q' _hsize hq' hf hmatches
    rcases Program.add_alike hprogram hf with ⟨hadd, hadd'⟩ | ⟨next, next', hadd, hadd', hnext⟩
    · rw [hadd, hadd', hf.name_eq]
      exact .error (.duplicateFunction hf.position)
    · rw [hadd, hadd']
      exact functions_agrees hnext hmatches
termination_by p.size
decreasing_by exact _hsize

/-- The end of the text is read alike. -/
theorem expectEnd_agrees (hp : p.Matches L p') :
    p.expectEnd.Agrees L L.token p'.expectEnd := by
  unfold expectEnd
  rw [hp.lexeme_eq]
  split
  · exact advance_agrees hp _ _
  · exact .error (hp.unexpected _)

end Parser

/-- Two results are programs that are alike or errors that are alike, or
the first is an error that is lost. -/
inductive Program.ResultsAlike (L : TokenSource.Likeness σ σ') :
    Except ParseError Program → Except ParseError Program → Prop
  | ok {program program' : Program} :
      program.Alike L.Place program' → ResultsAlike L (.ok program) (.ok program')
  | error {e e' : ParseError} : e.Alike L e' → ResultsAlike L (.error e) (.error e')
  | lost {e : TokenError} {r' : Except ParseError Program} :
      L.lost e → ResultsAlike L (.error (.token e)) r'

/-- Two parsers that match read programs alike. -/
theorem Parser.program_alike {p : Parser σ} {p' : Parser σ'} (hp : p.Matches L p') :
    Program.ResultsAlike L p.program.1 p'.program.1 := by
  have hempty : Program.empty.Alike L.Place .empty := List.Forall₂.nil
  have hagrees := (functions_agrees hempty hp).andThen
    fun program program' q q' _ _ hprogram hmatches =>
      (expectEnd_agrees hmatches).map fun _ => hprogram
  unfold program
  generalize ((functions .empty p).andThen fun program q _ =>
    q.expectEnd.map fun _ => program) = read at hagrees ⊢
  generalize ((functions .empty p').andThen fun program q _ =>
    q.expectEnd.map fun _ => program) = read' at hagrees ⊢
  cases hagrees with
  | ok hprogram _ => exact .ok hprogram
  | error he => exact .error he
  | lost he => exact .lost he

/-- Sources that are alike spell programs alike. -/
theorem Program.ofSource_alike {s : σ} {s' : σ'} (h : L.source s s') :
    Program.ResultsAlike L (Program.ofSource s) (Program.ofSource s') := by
  unfold Program.ofSource Parser.start
  rcases hnext : TokenSource.next s with ⟨e | t, rest⟩
  · rcases L.fail h hnext with he | ⟨e', rest', hnext', he⟩
    · exact .lost he
    · rw [hnext']
      exact .error (.token he)
  · obtain ⟨t', rest', hnext', ht, hrest⟩ := L.next h hnext
    rw [hnext']
    exact Parser.program_alike ⟨ht, hrest, rfl⟩

/-! ### Equal tokens -/

/-- A likeness of sources whose tokens are equal. -/
def TokenSource.Likeness.ofEqual (S : σ → σ' → Prop) (fault : TokenError → TokenError → Prop)
    (lost : TokenError → Prop)
    (next : ∀ {s s' t rest}, S s s' → TokenSource.next s = (.ok t, rest) →
      ∃ rest', TokenSource.next s' = (.ok t, rest') ∧ S rest rest')
    (fail : ∀ {s s' e rest}, S s s' → TokenSource.next s = (.error e, rest) →
      lost e ∨ ∃ e' rest', TokenSource.next s' = (.error e', rest') ∧ fault e e') :
    TokenSource.Likeness σ σ' where
  source := S
  token := Eq
  fault := fault
  lost := lost
  lexeme_eq := fun h => congrArg Token.lexeme h.symm
  next := by
    intro s s' t rest hs hnext
    obtain ⟨rest', hnext', hrest⟩ := next hs hnext
    exact ⟨t, rest', hnext', rfl, hrest⟩
  fail := fail

/-- The source `s'` gives what `s` gives, as long as `s` gives no error
that is `lost`. -/
structure TokenSource.Simulates (S : σ → σ' → Prop) (lost : TokenError → Prop) : Prop where
  next : ∀ {s s' t rest}, S s s' → TokenSource.next s = (.ok t, rest) →
    ∃ rest', TokenSource.next s' = (.ok t, rest') ∧ S rest rest'
  fail : ∀ {s s' e rest}, S s s' → TokenSource.next s = (.error e, rest) →
    lost e ∨ ∃ rest', TokenSource.next s' = (.error e, rest')

/-- A simulation is a likeness in which errors are equal too. -/
def TokenSource.Simulates.likeness {S : σ → σ' → Prop} {lost : TokenError → Prop}
    (hS : TokenSource.Simulates S lost) : TokenSource.Likeness σ σ' :=
  .ofEqual S Eq lost hS.next (by
    intro s s' e rest hs hnext
    rcases hS.fail hs hnext with he | ⟨rest', hnext'⟩
    · exact .inl he
    · exact .inr ⟨e, rest', hnext', rfl⟩)

section

variable (htoken : ∀ t t', L.token t t' → t = t')
include htoken

/-- If tokens that are alike are equal, places that are alike are equal. -/
theorem TokenSource.Likeness.Place.eq {x x' : Position} (h : L.Place x x') : x = x' := by
  obtain ⟨l, h⟩ := h
  exact congrArg Token.position (htoken _ _ h)

/-- If tokens and errors of tokens that are alike are equal, errors of
reading that are alike are equal. -/
theorem ParseError.Alike.eq (hfault : ∀ e e', L.fault e e' → e = e') {e e' : ParseError}
    (h : e.Alike L e') : e = e' := by
  cases h with
  | token he => rw [hfault _ _ he]
  | unexpectedToken ht | missingExpression ht | missingOperand ht => cases htoken _ _ ht; rfl
  | missingBody hx | missingCondition hx | duplicateFunction hx | duplicateParameter hx
  | controlOutsideLoop hx => rw [TokenSource.Likeness.Place.eq htoken hx]

/-- With equal tokens the results are equal, unless the first is lost. -/
theorem Program.ResultsAlike.eq_or_lost (hfault : ∀ e e', L.fault e e' → e = e')
    {r r' : Except ParseError Program} (h : Program.ResultsAlike L r r') :
    (∃ e, L.lost e ∧ r = .error (.token e)) ∨ r' = r := by
  cases h with
  | ok hprogram => rw [hprogram.eq fun _ _ => TokenSource.Likeness.Place.eq htoken]; exact .inr rfl
  | error he => rw [he.eq htoken hfault]; exact .inr rfl
  | lost he => exact .inl ⟨_, he, rfl⟩

end

/-- Related sources spell the same program or the same error, unless the
first one gives an error that is lost. -/
theorem Program.ofSource_agrees {S : σ → σ' → Prop} {lost : TokenError → Prop}
    (hS : TokenSource.Simulates S lost) {s : σ} {s' : σ'} (h : S s s') :
    (∃ e, lost e ∧ Program.ofSource s = .error (.token e)) ∨
      Program.ofSource s' = Program.ofSource s :=
  (Program.ofSource_alike (L := hS.likeness) h).eq_or_lost (fun _ _ => id) fun _ _ => id

end ScalarScript
