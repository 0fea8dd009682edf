import ScalarScript.Expr.Parser
import ScalarScript.Proofs.Parser.Reading

/-!
# `ScalarScript.Proofs.Parser.Expression`: expressions are read by the grammar

Reading an expression and deriving one are the same. `Sound` says that
what a reader reads is derivable, and `Complete` that what is derivable
is read, if the token behind it does not carry the phrase on. Each level
of precedence has one lemma of each kind, over any reader of the level
below; `expression?_sound` and `expression?_complete` close the circle
by induction on the size of the parser.

The token behind a phrase matters because a reader takes as much as it
can: `a` is a derivable expression, but it is not what is read where `a`
is followed by `+`, nor, since `a` may be called, by `(`.
`Level.continuations` lists these symbols for each level.
-/

set_option autoImplicit false

namespace ScalarScript

open Grammar

/-! ### The tables of the reader -/

/-- How the reader of a chain takes a symbol. -/
def Grammar.Chain.link? : Chain → Symbol → Option Link
  | .disjunction => Link.disjunction?
  | .conjunction => Link.conjunction?
  | .sum => Link.sum?
  | .product => Link.product?

/-- The table of a chain has exactly the symbols that join its operands. -/
theorem joins_iff (c : Chain) (s : Symbol) (p : Position) (e e' : Expr) :
    Joins c s p e e' ↔ ∃ link, c.link? s = some link ∧ e' = link.apply p e := by
  constructor
  · rintro (_ | _ | _ | _ | _ | _) <;> exact ⟨_, rfl, rfl⟩
  · rintro ⟨link, hlink, rfl⟩
    cases c <;> cases s <;> cases hlink <;> constructor

/-- The table of comparisons has exactly the symbols that compare. -/
theorem compares_iff (s : Symbol) (op : ComparisonOp) :
    Compares s op ↔ ComparisonOp.ofSymbol? s = some op := by
  constructor
  · rintro (_ | _ | _ | _ | _ | _) <;> rfl
  · intro h
    cases s <;> cases h <;> constructor

/-- The table of unary operators has exactly the symbols that may stand in
front of an operand. -/
theorem prefixes_iff (s : Symbol) (op : UnaryOp) :
    Prefixes s op ↔ UnaryOp.ofSymbol? s = some op := by
  constructor
  · rintro (_ | _) <;> rfl
  · intro h
    cases s <;> cases h <;> constructor

/-- The lexeme that starts a primary expression. -/
def PrimaryStart.lexeme : PrimaryStart → Lexeme
  | int n => .int n
  | float x => .float x
  | string s => .string s
  | name s => .identifier s
  | parenthesis => .symbol .leftParen

/-- The first token of a primary expression is found to start it. -/
theorem PrimaryStart.ofLexeme?_lexeme (first : PrimaryStart) :
    ofLexeme? first.lexeme = some first := by
  cases first <;> rfl

/-- What is found to start a primary expression is its first token. -/
theorem PrimaryStart.eq_of_ofLexeme? {l : Lexeme} {first : PrimaryStart}
    (h : ofLexeme? l = some first) : l = first.lexeme := by
  unfold ofLexeme? at h
  split at h <;> cases h <;> rfl

/-- A primary expression starts with one of the tokens that the reader
looks for. -/
theorem exists_primaryStart {ts : List Token} {e : Expr} (h : Derives .primary ts e) :
    ∃ (first : PrimaryStart) (x : Position) (us : List Token), ts = ⟨first.lexeme, x⟩ :: us := by
  cases h with
  | int n x => exact ⟨.int n, x, _, rfl⟩
  | float v x => exact ⟨.float v, x, _, rfl⟩
  | string s x => exact ⟨.string s, x, _, rfl⟩
  | name s x => exact ⟨.name s, x, _, rfl⟩
  | @call f x _ _ _ _ _ => exact ⟨.name f, x, _, rfl⟩
  | @parenthesis x _ _ _ _ => exact ⟨.parenthesis, x, _, rfl⟩

/-! ### Where a phrase ends -/

/-- The symbols that carry a phrase of a level on. -/
def Grammar.Level.continuations : Level → List Symbol
  | .primary | .unary => [.leftParen]
  | .chain .product => [.star, .slash, .leftParen]
  | .chain .sum => [.plus, .minus, .star, .slash, .leftParen]
  | .comparison =>
    [.equal, .notEqual, .less, .lessEqual, .greater, .greaterEqual, .plus, .minus, .star, .slash,
      .leftParen]
  | .chain .conjunction =>
    [.andWord, .equal, .notEqual, .less, .lessEqual, .greater, .greaterEqual, .plus, .minus,
      .star, .slash, .leftParen]
  | .chain .disjunction =>
    [.orWord, .andWord, .equal, .notEqual, .less, .lessEqual, .greater, .greaterEqual, .plus,
      .minus, .star, .slash, .leftParen]

/-- A token that does not carry a phrase of the level on. -/
def Grammar.Level.EndsAt (level : Level) (t : Token) : Prop :=
  ∀ s, t.lexeme = .symbol s → s ∉ level.continuations

namespace Grammar.Level.EndsAt

/-- A phrase ends in front of a symbol that could not continue it. -/
theorem of_mark {level : Level} {s : Symbol} {p : Position} (h : s ∉ level.continuations) :
    level.EndsAt (mark s p) := by
  intro s' hs'
  cases hs'
  exact h

/-- Where a chain ends, its last operand ends. -/
theorem operand {c : Chain} {t : Token} (h : (Level.chain c).EndsAt t) : c.operand.EndsAt t := by
  intro s hs hmem
  apply h s hs
  cases c <;> simp_all [Chain.operand, Level.continuations]

/-- An operand ends in front of a symbol that joins a further one. -/
theorem of_joins {c : Chain} {s : Symbol} {p x : Position} {e e' : Expr}
    (h : Joins c s p e e') : c.operand.EndsAt (mark s x) := by
  apply of_mark
  cases h <;> decide

/-- Where a chain ends, no symbol joins a further operand. -/
theorem link?_eq_none {c : Chain} {t : Token} (h : (Level.chain c).EndsAt t) (s : Symbol)
    (hs : t.lexeme = .symbol s) : c.link? s = none := by
  have hmem := h s hs
  cases c <;> cases s <;> first | rfl | exact absurd (by decide) hmem

/-- Where a comparison ends, no further comparison follows. -/
theorem ofSymbol?_eq_none {t : Token} (h : Level.comparison.EndsAt t) (s : Symbol)
    (hs : t.lexeme = .symbol s) : ComparisonOp.ofSymbol? s = none := by
  have hmem := h s hs
  cases s <;> first | rfl | exact absurd (by decide) hmem

/-- Where a comparison ends, its last sum does too. -/
theorem sum_of_comparison {t : Token} (h : Level.comparison.EndsAt t) :
    (Level.chain .sum).EndsAt t := by
  intro s hs hmem
  apply h s hs
  simp_all [Level.continuations]

/-- A sum ends in front of a symbol that compares. -/
theorem sum_of_compares {s : Symbol} {op : ComparisonOp} {x : Position} (h : Compares s op) :
    (Level.chain .sum).EndsAt (mark s x) := by
  apply of_mark
  cases h <;> decide

end Grammar.Level.EndsAt

namespace Parser

variable {σ : Type} [TokenSource σ] {α : Type} {P : Parser σ → Prop}

/-- What a reader reads is a phrase of `R`. -/
def Sound (reader : (p : Parser σ) → P p → Attempt σ p.size α)
    (R : List Token → α → Prop) : Prop :=
  ∀ p hp a q, Started (reader p hp) a q → ∃ ts, p.Reads ts q ∧ R ts a

/-- A phrase of `R` is read if the token behind it allows it to end. -/
def Complete (reader : (p : Parser σ) → P p → Attempt σ p.size α)
    (R : List Token → α → Prop) (EndsAt : Token → Prop) : Prop :=
  ∀ p hp ts a q, p.Reads ts q → R ts a → EndsAt q.current → Started (reader p hp) a q

variable {top : Parser σ} {operand : Reader top Expr} {nested : NestedReader top Expr}

/-- A reader of the expressions inside another one, which reads nothing
else and leaves the parser as it is where it finds none. -/
structure SoundNested (nested : NestedReader top Expr) : Prop where
  sound : Sound nested (Derives .top)
  still : ∀ p hp q h, nested p hp = .absent q h → q = p

/-- A reader of the expressions inside another one, which reads all of
them and finds none at the parenthesis that closes a list of arguments. -/
structure CompleteNested (nested : NestedReader top Expr) : Prop where
  complete : Complete nested (Derives .top) Level.top.EndsAt
  eq_absent : ∀ p hp, p.current.lexeme = .symbol .rightParen →
    nested p hp = .absent p p.le_refl

/-- An operator is read together with the symbol that stands for it. -/
theorem started_operator? (p : Parser σ) (meaning : Symbol → Option α) (s : Symbol) (a : α)
    (x : Position) (q : Parser σ) :
    Started (p.acceptSymbol? (withSymbol meaning)) ((s, a), x) q ↔
      meaning s = some a ∧ p.Reads [mark s x] q := by
  rw [started_acceptSymbol?]
  simp only [withSymbol, Option.map_eq_some_iff, Prod.mk.injEq]
  constructor
  · rintro ⟨s', ⟨a', ha, rfl, rfl⟩, hreads⟩
    exact ⟨ha, hreads⟩
  · rintro ⟨ha, hreads⟩
    exact ⟨s, ⟨a, ha, rfl, rfl⟩, hreads⟩

/-- An operator is absent exactly if the current token has no meaning as
one, and then the parser is as it was. -/
theorem operator?_eq_absent_iff (p : Parser σ) (meaning : Symbol → Option α) (q : Parser σ)
    (h : q.size ≤ p.size) :
    p.acceptSymbol? (withSymbol meaning) = .absent q h ↔
      q = p ∧ ∀ s, p.current.lexeme = .symbol s → meaning s = none := by
  rw [acceptSymbol?_eq_absent_iff]
  simp [withSymbol]

/-- An operand that has to be there is read exactly as one that may be
there. -/
theorem gives_expectOperand (operand : Reader top Expr) (s : Symbol) (p : Parser σ)
    (hp : p.size ≤ top.size) (e : Expr) (q : Parser σ) :
    (expectOperand operand s p hp).Gives e q ↔ Started (operand p hp) e q :=
  Parsed.gives_orError _ _ _ _

/-! ### Chains -/

/-- What is read behind the first operand of a chain are links. -/
theorem chainRest_sound {c : Chain} (hoperand : Sound operand (Derives c.operand)) (p : Parser σ)
    (hp : p.size ≤ top.size) (es : List Expr) (q : Parser σ)
    (h : (chainRest c.link? operand p hp).Gives es q) : ∃ ts, p.Reads ts q ∧ Links c ts es := by
  -- Every link starts with a symbol, so the rest of the chain stands at a smaller parser.
  induction hn : p.size using Nat.strongRecOn generalizing p es with
  | ind n ih =>
    rw [chainRest] at h
    split at h
    · rename_i habsent
      obtain ⟨rfl, -⟩ := (operator?_eq_absent_iff _ _ _ _).mp habsent
      obtain ⟨rfl, rfl⟩ := (Parsed.gives_done _ _ _ _ _).mp h
      exact ⟨[], rfl, .nil⟩
    · rename_i linked hlinked
      rw [Parsed.gives_loose, Parsed.gives_andThen] at h
      obtain ⟨⟨⟨s, link⟩, x⟩, q₁, hq₁, hs, h⟩ := h
      rw [Parsed.gives_loose, Parsed.gives_andThen] at h
      obtain ⟨e, q₂, hq₂, he, h⟩ := h
      rw [Parsed.gives_map] at h
      obtain ⟨es, hes, rfl⟩ := h
      obtain ⟨hlink, hread⟩ := (started_operator? p _ _ _ _ _).mp ⟨linked, hlinked, hs⟩
      rw [gives_expectOperand] at he
      obtain ⟨ts, hts, hderives⟩ := hoperand _ _ _ _ he
      obtain ⟨us, hus, hlinks⟩ := ih q₂.size (by omega) q₂ _ es hes rfl
      exact ⟨_, hread.cons (hts.trans hus),
        .cons ((joins_iff c s x e _).mpr ⟨link, hlink, rfl⟩) hderives hlinks⟩

/-- A chain is read only where one is spelled, if this holds for its
operands. -/
theorem chain_sound {c : Chain} (hoperand : Sound operand (Derives c.operand)) :
    Sound (chain c.node c.link? operand) (Derives (.chain c)) := by
  intro p hp e q h
  rw [chain, Started.map_iff] at h
  obtain ⟨read, hread, h⟩ := h
  rw [Parsed.gives_andThen] at h
  obtain ⟨first, q₁, hq₁, hfirst, h⟩ := h
  rw [Parsed.gives_map] at h
  obtain ⟨others, hothers, rfl⟩ := h
  obtain ⟨ts, hts, hderives⟩ := hoperand p hp first q₁ ⟨read, hread, hfirst⟩
  obtain ⟨us, hus, hlinks⟩ := chainRest_sound hoperand q₁ _ others q hothers
  -- The reader looks at the further operands only to choose between the two rules.
  cases others with
  | nil =>
    cases hlinks
    exact ⟨ts, by rw [reads_nil] at hus; rwa [hus], .single hderives⟩
  | cons second others => exact ⟨_, hts.trans hus, .chain hderives hlinks⟩

/-- An operand ends at the next link, or where the chain ends. -/
theorem endsAt_of_links {c : Chain} {p q : Parser σ} {ts : List Token} {es : List Expr}
    (hreads : p.Reads ts q) (hlinks : Links c ts es) (hend : (Level.chain c).EndsAt q.current) :
    c.operand.EndsAt p.current := by
  cases hlinks with
  | nil =>
    rw [reads_nil] at hreads
    exact hreads ▸ hend.operand
  | cons hjoins _ _ =>
    rw [hreads.current]
    exact .of_joins hjoins

/-- Links are read to the end, if the operands are. What ends the whole
chain ends the last operand too. -/
theorem chainRest_complete {c : Chain}
    (hoperand : Complete operand (Derives c.operand) c.operand.EndsAt) (p : Parser σ)
    (hp : p.size ≤ top.size) (ts : List Token) (es : List Expr) (q : Parser σ)
    (hreads : p.Reads ts q) (hlinks : Links c ts es) (hend : (Level.chain c).EndsAt q.current) :
    (chainRest c.link? operand p hp).Gives es q := by
  -- The derivation fixes how many links there are, so the induction is on their operands. The
  -- token behind each one is the next link, or the token where the whole chain ends.
  induction es generalizing p ts with
  | nil =>
    cases hlinks
    rw [reads_nil] at hreads
    subst hreads
    have habsent := (operator?_eq_absent_iff q c.link? q q.le_refl).mpr ⟨rfl, hend.link?_eq_none⟩
    rw [chainRest, habsent]
    simp
  | cons e' es ih =>
    cases hlinks with
    | @cons _ s x ts us e _ _ hjoins hderives hlinks =>
      obtain ⟨q₁, hs, hreads⟩ := (reads_cons _ _ _ _).mp hreads
      obtain ⟨q₂, hts, hus⟩ := (reads_append _ _ _ _).mp hreads
      obtain ⟨link, hlink, rfl⟩ := (joins_iff c s x e _).mp hjoins
      have hend₂ := endsAt_of_links hus hlinks hend
      obtain ⟨linked, hlinked, hgives⟩ :=
        (started_operator? p c.link? s link x q₁).mpr ⟨hlink, hs⟩
      rw [chainRest, hlinked]
      simp only [Parsed.gives_loose]
      rw [Parsed.gives_andThen]
      refine ⟨((s, link), x), q₁, hs.size_lt, hgives, ?_⟩
      simp only [Parsed.gives_loose]
      rw [Parsed.gives_andThen]
      have hle : q₁.size ≤ top.size := Nat.le_trans hs.size_le hp
      have hoperand₁ := (gives_expectOperand operand s q₁ hle e q₂).mpr
        (hoperand q₁ hle ts e q₂ hts hderives hend₂)
      refine ⟨e, q₂, hoperand₁.size_lt, hoperand₁, ?_⟩
      rw [Parsed.gives_map]
      exact ⟨es, ih q₂ (Nat.le_trans hts.size_le hle) us hus hlinks, rfl⟩

/-- A chain that is spelled is read, if this holds for its operands. -/
theorem chain_complete {c : Chain}
    (hoperand : Complete operand (Derives c.operand) c.operand.EndsAt) :
    Complete (chain c.node c.link? operand) (Derives (.chain c)) (Level.chain c).EndsAt := by
  intro p hp ts e q hreads hderives hend
  -- One operand or more are a first one and links, of which there may be none.
  obtain ⟨us, vs, first, others, rfl, hfirst, hlinks, halone, hjoined⟩ :
      ∃ us vs first others, ts = us ++ vs ∧ Derives c.operand us first ∧ Links c vs others ∧
        (others = [] → e = first) ∧
        (others ≠ [] → e = c.node (first :: others) first.position) := by
    cases hderives with
    | single h => exact ⟨ts, [], e, [], by simp, h, .nil, fun _ => rfl, by simp⟩
    | chain h hlinks => exact ⟨_, _, _, _, rfl, h, hlinks, by simp, fun _ => rfl⟩
  obtain ⟨q₁, hus, hvs⟩ := (reads_append _ _ _ _).mp hreads
  have hend₁ := endsAt_of_links hvs hlinks hend
  obtain ⟨read, hread, hgives⟩ := hoperand p hp us first q₁ hus hfirst hend₁
  rw [chain, Started.map_iff]
  refine ⟨read, hread, ?_⟩
  rw [Parsed.gives_andThen]
  refine ⟨first, q₁, hgives.size_lt, hgives, ?_⟩
  rw [Parsed.gives_map]
  refine ⟨others, chainRest_complete hoperand q₁ _ vs others q hvs hlinks hend, ?_⟩
  cases others with
  | nil => exact halone rfl
  | cons second others => exact hjoined (by simp)

/-! ### Comparisons and operators in front of an operand -/

/-- A comparison is read only where one is spelled, if this holds for
sums. -/
theorem comparison_sound (hoperand : Sound operand (Derives (.chain .sum))) :
    Sound (comparison operand) (Derives .comparison) := by
  intro p hp e q h
  rw [comparison, Started.map_iff] at h
  obtain ⟨read, hread, h⟩ := h
  rw [Parsed.gives_andThen] at h
  obtain ⟨left, q₁, hq₁, hleft, h⟩ := h
  obtain ⟨ts, hts, hderives⟩ := hoperand p hp left q₁ ⟨read, hread, hleft⟩
  split at h
  · rename_i habsent
    obtain ⟨rfl, -⟩ := (operator?_eq_absent_iff _ _ _ _).mp habsent
    obtain ⟨rfl, rfl⟩ := (Parsed.gives_done _ _ _ _ _).mp h
    exact ⟨ts, hts, .uncompared hderives⟩
  · rename_i compared hcompared
    rw [Parsed.gives_loose, Parsed.gives_andThen] at h
    obtain ⟨⟨⟨s, op⟩, x⟩, q₂, hq₂, hs, h⟩ := h
    rw [Parsed.gives_loose, Parsed.gives_map] at h
    obtain ⟨right, hright, rfl⟩ := h
    obtain ⟨hop, hread'⟩ := (started_operator? q₁ _ _ _ _ _).mp ⟨compared, hcompared, hs⟩
    have hcompares := (compares_iff s op).mpr hop
    rw [gives_expectOperand] at hright
    obtain ⟨us, hus, hderives'⟩ := hoperand _ _ _ _ hright
    exact ⟨_, hts.trans (hread'.cons hus), .compared hcompares hderives hderives'⟩

/-- A comparison that is spelled is read, if this holds for sums. -/
theorem comparison_complete
    (hoperand : Complete operand (Derives (.chain .sum)) (Level.chain .sum).EndsAt) :
    Complete (comparison operand) (Derives .comparison) Level.comparison.EndsAt := by
  intro p hp ts e q hreads hderives hend
  cases hderives with
  | uncompared hderives =>
    obtain ⟨read, hread, hgives⟩ := hoperand p hp ts e q hreads hderives hend.sum_of_comparison
    have habsent := (operator?_eq_absent_iff q ComparisonOp.ofSymbol? q q.le_refl).mpr
      ⟨rfl, hend.ofSymbol?_eq_none⟩
    rw [comparison, Started.map_iff]
    refine ⟨read, hread, ?_⟩
    rw [Parsed.gives_andThen]
    refine ⟨e, q, hgives.size_lt, hgives, ?_⟩
    simp [habsent]
  | @compared s op x ts us left right hcompares hleft hright =>
    obtain ⟨q₁, hts, hreads⟩ := (reads_append _ _ _ _).mp hreads
    obtain ⟨q₂, hs, hus⟩ := (reads_cons _ _ _ _).mp hreads
    -- The left side ends at the operator, the right side where the whole comparison does.
    have hend₁ : (Level.chain .sum).EndsAt q₁.current := hs.current ▸ .sum_of_compares hcompares
    obtain ⟨read, hread, hgives⟩ := hoperand p hp ts left q₁ hts hleft hend₁
    obtain ⟨compared, hcompared, hgives'⟩ := (started_operator? q₁ _ s op x q₂).mpr
      ⟨(compares_iff s op).mp hcompares, hs⟩
    rw [comparison, Started.map_iff]
    refine ⟨read, hread, ?_⟩
    rw [Parsed.gives_andThen]
    refine ⟨left, q₁, hgives.size_lt, hgives, ?_⟩
    simp only [hcompared, Parsed.gives_loose]
    rw [Parsed.gives_andThen]
    refine ⟨((s, op), x), q₂, hgives'.size_lt, hgives', ?_⟩
    have hle : q₂.size ≤ top.size := Nat.le_trans hs.size_le (Nat.le_trans hts.size_le hp)
    rw [Parsed.gives_loose, Parsed.gives_map]
    exact ⟨right, (gives_expectOperand operand s q₂ hle right q).mpr
      (hoperand q₂ hle us right q hus hright hend.sum_of_comparison), rfl⟩

/-- An operand with its operator is read only where one is spelled, if
this holds for primary expressions. -/
theorem unary_sound (hoperand : Sound operand (Derives .primary)) :
    Sound (unary operand) (Derives .unary) := by
  intro p hp e q h
  rw [unary] at h
  split at h
  · rename_i habsent
    obtain ⟨rfl, -⟩ := (operator?_eq_absent_iff _ _ _ _).mp habsent
    rw [Started.within_iff] at h
    obtain ⟨ts, hts, hderives⟩ := hoperand _ _ e q h
    exact ⟨ts, hts, .plain hderives⟩
  · rename_i applied happlied
    rw [Started.found_iff, Parsed.gives_andThen] at h
    obtain ⟨⟨⟨s, op⟩, x⟩, q₁, hq₁, hs, h⟩ := h
    rw [Parsed.gives_loose, Parsed.gives_map] at h
    obtain ⟨e, he, rfl⟩ := h
    obtain ⟨hop, hread⟩ := (started_operator? p _ _ _ _ _).mp ⟨applied, happlied, hs⟩
    have hprefixes := (prefixes_iff s op).mpr hop
    rw [gives_expectOperand] at he
    obtain ⟨ts, hts, hderives⟩ := hoperand _ _ _ _ he
    exact ⟨_, hread.cons hts, .prefixed hprefixes hderives⟩

/-- An operand with its operator that is spelled is read, if this holds
for primary expressions. -/
theorem unary_complete (hoperand : Complete operand (Derives .primary) Level.primary.EndsAt) :
    Complete (unary operand) (Derives .unary) Level.unary.EndsAt := by
  intro p hp ts e q hreads hderives hend
  cases hderives with
  | plain hderives =>
    have habsent : p.acceptSymbol? (withSymbol UnaryOp.ofSymbol?) = .absent p p.le_refl := by
      rw [operator?_eq_absent_iff]
      refine ⟨rfl, fun s hs => ?_⟩
      -- The only symbol that starts a primary expression is the parenthesis.
      obtain ⟨first, x, us, rfl⟩ := exists_primaryStart hderives
      rw [hreads.current] at hs
      cases first <;> cases hs
      rfl
    rw [unary, habsent]
    simp only [Started.within_iff]
    exact hoperand p hp ts e q hreads hderives hend
  | @prefixed s op x ts e hprefixes hderives =>
    obtain ⟨q₁, hs, hts⟩ := (reads_cons _ _ _ _).mp hreads
    obtain ⟨applied, happlied, hgives⟩ := (started_operator? p _ s op x q₁).mpr
      ⟨(prefixes_iff s op).mp hprefixes, hs⟩
    rw [unary, happlied]
    simp only [Started.found_iff]
    rw [Parsed.gives_andThen]
    refine ⟨((s, op), x), q₁, hgives.size_lt, hgives, ?_⟩
    have hle : q₁.size ≤ top.size := Nat.le_trans hs.size_le hp
    rw [Parsed.gives_loose, Parsed.gives_map]
    exact ⟨e, (gives_expectOperand operand s q₁ hle e q).mpr
      (hoperand q₁ hle ts e q hts hderives hend), rfl⟩

/-! ### Calls and parentheses -/

/-- What is read behind the first argument are further arguments. -/
theorem argumentsRest_sound (hnested : SoundNested nested) (p : Parser σ)
    (hp : p.size < top.size) (es : List Expr) (q : Parser σ)
    (h : (argumentsRest nested p hp).Gives es q) : ∃ ts, p.Reads ts q ∧ FurtherArguments ts es := by
  induction hn : p.size using Nat.strongRecOn generalizing p es with
  | ind n ih =>
    rw [argumentsRest] at h
    split at h
    · rename_i habsent
      obtain ⟨rfl, -⟩ := (acceptSymbol?_only_eq_absent_iff _ _ _ _).mp habsent
      obtain ⟨rfl, rfl⟩ := (Parsed.gives_done _ _ _ _ _).mp h
      exact ⟨[], rfl, .nil⟩
    · rename_i comma hcomma
      rw [Parsed.gives_loose, Parsed.gives_andThen] at h
      obtain ⟨⟨_, x⟩, q₁, hq₁, hx, h⟩ := h
      have hread := (started_acceptSymbol?_only p .comma _ x q₁).mp ⟨comma, hcomma, hx⟩
      dsimp only at h
      split at h
      · rw [Parsed.gives_error] at h
        exact h.elim
      · rename_i read hread'
        rw [Parsed.gives_loose, Parsed.gives_andThen] at h
        obtain ⟨e, q₂, hq₂, he, h⟩ := h
        rw [Parsed.gives_map] at h
        obtain ⟨es, hes, rfl⟩ := h
        obtain ⟨ts, hts, hderives⟩ := hnested.sound q₁ _ e q₂ ⟨read, hread', he⟩
        obtain ⟨us, hus, hmore⟩ := ih q₂.size (by omega) q₂ _ es hes rfl
        exact ⟨_, hread.cons (hts.trans hus), .cons hderives hmore⟩

/-- An argument ends at the next comma, or at the parenthesis. -/
theorem endsAt_of_furtherArguments {p q : Parser σ} {ts : List Token} {es : List Expr}
    (hreads : p.Reads ts q) (hmore : FurtherArguments ts es)
    (hend : q.current.lexeme = .symbol .rightParen) : Level.top.EndsAt p.current := by
  intro s hs
  cases hmore with
  | nil =>
    rw [reads_nil] at hreads
    rw [← hreads, hend] at hs
    cases hs
    decide
  | cons _ _ =>
    rw [hreads.current] at hs
    cases hs
    decide

/-- Further arguments are read up to the closing parenthesis. -/
theorem argumentsRest_complete (hnested : CompleteNested nested) (p : Parser σ)
    (hp : p.size < top.size) (ts : List Token) (es : List Expr) (q : Parser σ)
    (hreads : p.Reads ts q) (hmore : FurtherArguments ts es)
    (hend : q.current.lexeme = .symbol .rightParen) : (argumentsRest nested p hp).Gives es q := by
  induction es generalizing p ts with
  | nil =>
    cases hmore
    rw [reads_nil] at hreads
    subst hreads
    have habsent : q.acceptSymbol? (only .comma) = .absent q q.le_refl := by
      rw [acceptSymbol?_only_eq_absent_iff, hend]
      simp
    rw [argumentsRest, habsent]
    simp
  | cons e es ih =>
    cases hmore with
    | @cons x ts us _ _ hderives hmore =>
      obtain ⟨q₁, hx, hreads⟩ := (reads_cons _ _ _ _).mp hreads
      obtain ⟨q₂, hts, hus⟩ := (reads_append _ _ _ _).mp hreads
      have hend₂ := endsAt_of_furtherArguments hus hmore hend
      obtain ⟨comma, hcomma, hgives⟩ := (started_acceptSymbol?_only p .comma () x q₁).mpr hx
      have hlt : q₁.size < top.size := Nat.lt_trans hx.size_lt hp
      obtain ⟨read, hread, hgives'⟩ := hnested.complete q₁ hlt ts e q₂ hts hderives hend₂
      rw [argumentsRest, hcomma]
      simp only [Parsed.gives_loose]
      rw [Parsed.gives_andThen]
      refine ⟨((), x), q₁, hgives.size_lt, hgives, ?_⟩
      simp only [hread, Parsed.gives_loose]
      rw [Parsed.gives_andThen]
      refine ⟨e, q₂, hgives'.size_lt, hgives', ?_⟩
      rw [Parsed.gives_map]
      exact ⟨es, ih q₂ (Nat.lt_of_le_of_lt hts.size_le hlt) us hus hmore, rfl⟩

/-- Arguments are read only where they are spelled, with their
parentheses. -/
theorem arguments_sound (hnested : SoundNested nested) (p : Parser σ)
    (hp : p.size ≤ top.size) (es : List Expr) (q : Parser σ)
    (h : (arguments nested p hp).Gives es q) :
    ∃ ts x y, p.Reads (mark .leftParen x :: (ts ++ [mark .rightParen y])) q ∧
      Arguments ts es := by
  rw [arguments, Parsed.gives_andThen] at h
  obtain ⟨_, q₁, hq₁, hopen, h⟩ := h
  obtain ⟨x, hx⟩ := (gives_expect _ _ _ _).mp hopen
  dsimp only at h
  split at h
  · rename_i habsent
    obtain rfl := hnested.still _ _ _ _ habsent
    rw [Parsed.gives_within, Parsed.gives_map] at h
    obtain ⟨_, hclose, rfl⟩ := h
    obtain ⟨y, hy⟩ := (gives_expect _ _ _ _).mp hclose
    exact ⟨[], x, y, hx.cons hy, .none⟩
  · rename_i read hread
    rw [Parsed.gives_loose, Parsed.gives_andThen] at h
    obtain ⟨e, q₂, hq₂, he, h⟩ := h
    rw [Parsed.gives_andThen] at h
    obtain ⟨es, q₃, hq₃, hes, h⟩ := h
    rw [Parsed.gives_loose, Parsed.gives_map] at h
    obtain ⟨_, hclose, rfl⟩ := h
    obtain ⟨y, hy⟩ := (gives_expect _ _ _ _).mp hclose
    obtain ⟨ts, hts, hderives⟩ := hnested.sound q₁ _ e q₂ ⟨read, hread, he⟩
    obtain ⟨us, hus, hmore⟩ := argumentsRest_sound hnested q₂ _ es q₃ hes
    exact ⟨ts ++ us, x, y, hx.cons ((hts.trans hus).trans hy), .some hderives hmore⟩

/-- Arguments that are spelled are read, with their parentheses. -/
theorem arguments_complete (hnested : CompleteNested nested) (p : Parser σ) (hp : p.size ≤ top.size)
    (ts : List Token) (x y : Position) (es : List Expr) (q : Parser σ)
    (hreads : p.Reads (mark .leftParen x :: (ts ++ [mark .rightParen y])) q)
    (hargs : Arguments ts es) : (arguments nested p hp).Gives es q := by
  obtain ⟨q₁, hx, hreads⟩ := (reads_cons _ _ _ _).mp hreads
  obtain ⟨q₃, hts, hy⟩ := (reads_append _ _ _ _).mp hreads
  have hopen := (gives_expect p .leftParen () q₁).mpr ⟨x, hx⟩
  have hclose := (gives_expect q₃ .rightParen () q).mpr ⟨y, hy⟩
  have hend : q₃.current.lexeme = .symbol .rightParen := by rw [hy.current]
  have hlt : q₁.size < top.size := Nat.lt_of_lt_of_le hx.size_lt hp
  rw [arguments, Parsed.gives_andThen]
  refine ⟨(), q₁, hopen.size_lt, hopen, ?_⟩
  cases hargs with
  | none =>
    -- The reader finds no argument because it tries to read one at the closing parenthesis.
    rw [reads_nil] at hts
    subst hts
    simp only [hnested.eq_absent q₃ hlt hend, Parsed.gives_within]
    rw [Parsed.gives_map]
    exact ⟨(), hclose, rfl⟩
  | @some ts us e es hderives hmore =>
    obtain ⟨q₂, hts, hus⟩ := (reads_append _ _ _ _).mp hts
    have hend₂ := endsAt_of_furtherArguments hus hmore hend
    obtain ⟨read, hread, hgives⟩ := hnested.complete q₁ hlt ts e q₂ hts hderives hend₂
    have hlt₂ : q₂.size < top.size := Nat.lt_of_le_of_lt hts.size_le hlt
    have hrest := argumentsRest_complete hnested q₂ hlt₂ us es q₃ hus hmore hend
    simp only [hread, Parsed.gives_loose]
    rw [Parsed.gives_andThen]
    refine ⟨e, q₂, hgives.size_lt, hgives, ?_⟩
    rw [Parsed.gives_andThen]
    refine ⟨es, q₃, hrest.size_lt, hrest, ?_⟩
    rw [Parsed.gives_loose, Parsed.gives_map]
    exact ⟨(), hclose, rfl⟩

/-- What is read behind its first token makes a primary expression. -/
theorem primaryRest_sound (hnested : SoundNested nested) (first : PrimaryStart)
    (x : Position) (p : Parser σ) (hp : p.size < top.size) (e : Expr) (q : Parser σ)
    (h : (primaryRest nested first x p hp).Gives e q) :
    ∃ ts, p.Reads ts q ∧ Derives .primary (⟨first.lexeme, x⟩ :: ts) e := by
  cases first with
  | int n =>
    rw [primaryRest, Parsed.gives_done] at h
    obtain ⟨rfl, rfl⟩ := h
    exact ⟨[], rfl, .int n x⟩
  | float v =>
    rw [primaryRest, Parsed.gives_done] at h
    obtain ⟨rfl, rfl⟩ := h
    exact ⟨[], rfl, .float v x⟩
  | string s =>
    rw [primaryRest, Parsed.gives_done] at h
    obtain ⟨rfl, rfl⟩ := h
    exact ⟨[], rfl, .string s x⟩
  | name s =>
    rw [primaryRest] at h
    split at h
    -- A parenthesis behind a name makes it a call.
    · rw [Parsed.gives_loose, Parsed.gives_map] at h
      obtain ⟨args, hargs, rfl⟩ := h
      obtain ⟨ts, y, z, hts, hargs⟩ := arguments_sound hnested p _ args q hargs
      exact ⟨_, hts, .call hargs⟩
    · rw [Parsed.gives_done] at h
      obtain ⟨rfl, rfl⟩ := h
      exact ⟨[], rfl, .name s x⟩
  | parenthesis =>
    rw [primaryRest] at h
    split at h
    · rw [Parsed.gives_error] at h
      exact h.elim
    · rename_i read hread
      rw [Parsed.gives_loose, Parsed.gives_andThen] at h
      obtain ⟨e, q₁, hq₁, he, h⟩ := h
      rw [Parsed.gives_loose, Parsed.gives_map] at h
      obtain ⟨_, hclose, rfl⟩ := h
      obtain ⟨y, hy⟩ := (gives_expect _ _ _ _).mp hclose
      obtain ⟨ts, hts, hderives⟩ := hnested.sound p _ e q₁ ⟨read, hread, he⟩
      exact ⟨_, hts.trans hy, .parenthesis hderives⟩

/-- A primary expression is read only where one is spelled. -/
theorem primary_sound (hnested : SoundNested nested) :
    Sound (primary nested) (Derives .primary) := by
  intro p hp e q h
  rw [primary_eq, Started.map_iff] at h
  obtain ⟨started, hstarted, h⟩ := h
  rw [Parsed.gives_andThen] at h
  obtain ⟨⟨first, x⟩, q₁, hq₁, hfirst, h⟩ := h
  obtain ⟨l, hl, hread⟩ := (started_accept? p _ _ _ _).mp ⟨started, hstarted, hfirst⟩
  obtain rfl := PrimaryStart.eq_of_ofLexeme? hl
  obtain ⟨ts, hts, hderives⟩ := primaryRest_sound hnested first x q₁ _ e q h
  exact ⟨_, hread.cons hts, hderives⟩

/-- What a primary expression has behind its first token is read. -/
theorem primaryRest_complete (hnested : CompleteNested nested) (first : PrimaryStart) (x : Position)
    (p : Parser σ) (hp : p.size < top.size) (ts : List Token) (e : Expr) (q : Parser σ)
    (hreads : p.Reads ts q) (hderives : Derives .primary (⟨first.lexeme, x⟩ :: ts) e)
    (hend : Level.primary.EndsAt q.current) : (primaryRest nested first x p hp).Gives e q := by
  cases first with
  | int n =>
    cases hderives
    simpa [primaryRest] using hreads
  | float v =>
    cases hderives
    simpa [primaryRest] using hreads
  | string s =>
    cases hderives
    simpa [primaryRest] using hreads
  | name s =>
    cases hderives with
    | name =>
      -- A parenthesis would make the name a call.
      have hat : ¬ p.isAt .leftParen = true := by
        rw [isAt_iff, ← (reads_nil p q).mp hreads]
        intro h
        exact hend _ h (by decide)
      simpa [primaryRest, hat] using hreads
    | @call _ _ y z ts args hargs =>
      have hat : p.isAt .leftParen = true := by
        rw [isAt_iff, hreads.current]
      simp only [primaryRest, hat, if_true, Parsed.gives_loose]
      rw [Parsed.gives_map]
      exact ⟨args, arguments_complete hnested p _ ts y z args q hreads hargs, rfl⟩
  | parenthesis =>
    cases hderives with
    | @parenthesis _ y ts _ hderives =>
      obtain ⟨q₁, hts, hy⟩ := (reads_append _ _ _ _).mp hreads
      have hend₁ : Level.top.EndsAt q₁.current := hy.current ▸ .of_mark (by decide)
      obtain ⟨read, hread, hgives⟩ := hnested.complete p hp ts e q₁ hts hderives hend₁
      simp only [primaryRest, hread, Parsed.gives_loose]
      rw [Parsed.gives_andThen]
      refine ⟨e, q₁, hgives.size_lt, hgives, ?_⟩
      rw [Parsed.gives_loose, Parsed.gives_map]
      exact ⟨(), (gives_expect q₁ .rightParen () q).mpr ⟨y, hy⟩, rfl⟩

/-- A primary expression that is spelled is read. -/
theorem primary_complete (hnested : CompleteNested nested) :
    Complete (primary nested) (Derives .primary) Level.primary.EndsAt := by
  intro p hp ts e q hreads hderives hend
  obtain ⟨first, x, us, rfl⟩ := exists_primaryStart hderives
  obtain ⟨q₁, hx, hus⟩ := (reads_cons _ _ _ _).mp hreads
  obtain ⟨started, hstarted, hgives⟩ := (started_accept? p PrimaryStart.ofLexeme? first x q₁).mpr
    ⟨first.lexeme, PrimaryStart.ofLexeme?_lexeme first, hx⟩
  rw [primary_eq, Started.map_iff]
  refine ⟨started, hstarted, ?_⟩
  rw [Parsed.gives_andThen]
  exact ⟨(first, x), q₁, hgives.size_lt, hgives,
    primaryRest_complete hnested first x q₁ _ us e q hus hderives hend⟩

/-! ### The whole ladder -/

/-- The levels together read an expression only where one is spelled. -/
theorem ladder_sound (hnested : SoundNested nested) :
    Sound (ladder nested) (Derives .top) :=
  chain_sound (c := .disjunction) <| chain_sound (c := .conjunction) <| comparison_sound <|
    chain_sound (c := .sum) <| chain_sound (c := .product) <| unary_sound <|
    primary_sound hnested

/-- The levels together read every expression that is spelled. -/
theorem ladder_complete (hnested : CompleteNested nested) :
    Complete (ladder nested) (Derives .top) Level.top.EndsAt :=
  chain_complete (c := .disjunction) <| chain_complete (c := .conjunction) <|
    comparison_complete <| chain_complete (c := .sum) <| chain_complete (c := .product) <|
    unary_complete <| primary_complete hnested

/-- A chain is absent exactly where its first operand is, and leaves the
parser that this one leaves. -/
theorem chain_eq_absent_iff (node : List Expr → Position → Expr) (link? : Symbol → Option Link)
    (operand : Reader top Expr) (p : Parser σ) (hp : p.size ≤ top.size) (q : Parser σ)
    (h : q.size ≤ p.size) :
    chain node link? operand p hp = .absent q h ↔ operand p hp = .absent q h := by
  unfold chain
  exact Attempt.map_eq_absent_iff _ _ _ _

/-- A comparison is absent exactly where its first sum is, and leaves the
parser that this one leaves. -/
theorem comparison_eq_absent_iff (operand : Reader top Expr) (p : Parser σ)
    (hp : p.size ≤ top.size) (q : Parser σ) (h : q.size ≤ p.size) :
    comparison operand p hp = .absent q h ↔ operand p hp = .absent q h := by
  unfold comparison
  exact Attempt.map_eq_absent_iff _ _ _ _

/-- An operand with its operator is absent exactly if there is no operator
and no operand. -/
theorem unary_eq_absent_iff (operand : Reader top Expr) (p : Parser σ) (hp : p.size ≤ top.size)
    (q : Parser σ) (h : q.size ≤ p.size) :
    unary operand p hp = .absent q h ↔
      (∀ s, p.current.lexeme = .symbol s → UnaryOp.ofSymbol? s = none) ∧
        operand p hp = .absent q h := by
  unfold unary
  split
  · rename_i habsent
    obtain ⟨rfl, hnone⟩ := (operator?_eq_absent_iff _ _ _ _).mp habsent
    rw [Attempt.within_rfl]
    exact (and_iff_right hnone).symm
  · rename_i applied happlied
    simp only [reduceCtorEq, false_iff]
    rintro ⟨hnone, -⟩
    -- If no operator stood here, none would have been found.
    have habsent := (operator?_eq_absent_iff p UnaryOp.ofSymbol? p p.le_refl).mpr ⟨rfl, hnone⟩
    rw [happlied] at habsent
    cases habsent

/-- A primary expression is absent exactly if the current token starts
none, and then the parser is as it was. -/
theorem primary_eq_absent_iff (nested : NestedReader top Expr) (p : Parser σ)
    (hp : p.size ≤ top.size) (q : Parser σ) (h : q.size ≤ p.size) :
    primary nested p hp = .absent q h ↔
      q = p ∧ PrimaryStart.ofLexeme? p.current.lexeme = none := by
  rw [primary_eq, Attempt.map_eq_absent_iff, accept?_eq_absent_iff _ _ rfl]

/-- No expression is found where the current token starts none, and then
the parser stays as it is. -/
theorem expression?_eq_absent_iff (p q : Parser σ) (h : q.size ≤ p.size) :
    p.expression? = .absent q h ↔
      (∀ s, p.current.lexeme = .symbol s → UnaryOp.ofSymbol? s = none) ∧
        q = p ∧ PrimaryStart.ofLexeme? p.current.lexeme = none := by
  rw [expression?, ladder, chain_eq_absent_iff, chain_eq_absent_iff, comparison_eq_absent_iff,
    chain_eq_absent_iff, chain_eq_absent_iff, unary_eq_absent_iff, primary_eq_absent_iff]

/-- A parser that finds no expression is as it was. -/
theorem expression?_still {p q : Parser σ} {h : q.size ≤ p.size}
    (habsent : p.expression? = .absent q h) : q = p :=
  ((expression?_eq_absent_iff p q h).mp habsent).2.1

/-- No expression is found at a symbol that is no operator in front of an
operand and no opening parenthesis. -/
theorem expression?_eq_absent {p : Parser σ} {s : Symbol} (hs : p.current.lexeme = .symbol s)
    (hminus : s ≠ .minus) (hnot : s ≠ .notWord) (hopen : s ≠ .leftParen) :
    p.expression? = .absent p p.le_refl := by
  rw [expression?_eq_absent_iff, hs]
  refine ⟨?_, rfl, ?_⟩
  · intro s' hs'
    cases hs'
    cases s <;> first | rfl | contradiction
  · cases s <;> first | rfl | contradiction

/-- What is read as an expression is derivable as one. -/
theorem expression?_sound (p : Parser σ) (e : Expr) (q : Parser σ)
    (h : Started p.expression? e q) : ∃ ts, p.Reads ts q ∧ Derives .top ts e := by
  rw [expression?] at h
  -- Nested expressions stand at smaller parsers.
  exact ladder_sound ⟨fun p' _hp' e' q' h' => expression?_sound p' e' q' h',
    fun _ _ _ _ habsent => expression?_still habsent⟩ p _ e q h
termination_by p.size
decreasing_by exact _hp'

/-- What is derivable as an expression is read as one, unless the next
token carries it on. -/
theorem expression?_complete (p : Parser σ) (ts : List Token) (e : Expr) (q : Parser σ)
    (hreads : p.Reads ts q) (hderives : Derives .top ts e) (hend : Level.top.EndsAt q.current) :
    Started p.expression? e q := by
  rw [expression?]
  exact ladder_complete
    ⟨fun p' _hp' ts' e' q' hreads' hderives' hend' =>
      expression?_complete p' ts' e' q' hreads' hderives' hend',
    fun _ _ h => expression?_eq_absent h (by decide) (by decide) (by decide)⟩
    p _ ts e q hreads hderives hend
termination_by p.size
decreasing_by exact _hp'

/-- Expressions may be nested in expressions: they are read only where
they are spelled. -/
theorem soundNested_expression? :
    SoundNested (fun q _ => q.expression? : NestedReader top Expr) :=
  ⟨fun p _ => expression?_sound p, fun _ _ _ _ habsent => expression?_still habsent⟩

/-- Expressions may be nested in expressions: they are read wherever they
are spelled. -/
theorem completeNested_expression? :
    CompleteNested (fun q _ => q.expression? : NestedReader top Expr) :=
  ⟨fun p _ => expression?_complete p,
    fun _ _ h => expression?_eq_absent h (by decide) (by decide) (by decide)⟩

/-- An expression that has to be there is read exactly as one that may be
there. -/
theorem gives_expectExpression (p : Parser σ) (e : Expr) (q : Parser σ) :
    p.expectExpression.Gives e q ↔ Started p.expression? e q :=
  Parsed.gives_orError _ _ _ _

/-- The arguments of a call are read only where they are spelled. -/
theorem callArguments_sound (p : Parser σ) (args : List Expr) (q : Parser σ)
    (h : p.callArguments.Gives args q) :
    ∃ ts x y, p.Reads (mark .leftParen x :: (ts ++ [mark .rightParen y])) q ∧
      Arguments ts args :=
  arguments_sound soundNested_expression? p _ args q h

/-- The arguments of a call that are spelled are read. -/
theorem callArguments_complete (p : Parser σ) (ts : List Token) (x y : Position)
    (args : List Expr) (q : Parser σ)
    (hreads : p.Reads (mark .leftParen x :: (ts ++ [mark .rightParen y])) q)
    (hargs : Arguments ts args) : p.callArguments.Gives args q :=
  arguments_complete completeNested_expression? p _ ts x y args q hreads hargs

end Parser

end ScalarScript
