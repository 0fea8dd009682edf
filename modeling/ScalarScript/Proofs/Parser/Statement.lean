import ScalarScript.Stmt.Parser
import ScalarScript.Proofs.Parser.Expression

/-!
# `ScalarScript.Proofs.Parser.Statement`: statements are read by the grammar

For statements, reading and deriving agree exactly: `Follows Phrase p s q`
holds of the tokens between two parsers when they are a phrase with the
tree `s`, when the `break`s and `continue`s of `s` have their loops, and
when no `else` behind `s` would still belong to it; and
`statement?_iff` says that this is when `s` is read.

Both halves of the last condition are needed. A reader that has read an
`if` without `else` has seen that no `else` follows (soundness uses this
to attach an `else` to the nearest open `if`), and a derivation of such
an `if` is only read where none follows.

The proofs go construct by construct, over any exact reader of nested
statements, and `statement?_iff` closes the circle by induction on the
size of the parser.
-/

set_option autoImplicit false

namespace ScalarScript

open Grammar

/-! ### The tables of the reader -/

/-- The lexeme that starts a statement. -/
def StmtStart.lexeme : StmtStart → Lexeme
  | ifWord => .symbol .ifWord
  | whileWord => .symbol .whileWord
  | varWord => .symbol .varWord
  | returnWord => .symbol .returnWord
  | breakWord => .symbol .breakWord
  | continueWord => .symbol .continueWord
  | name s => .identifier s

/-- The first token of a statement is found to start it. -/
theorem StmtStart.ofLexeme?_lexeme (first : StmtStart) : ofLexeme? first.lexeme = some first := by
  cases first <;> rfl

/-- What is found to start a statement is its first token. -/
theorem StmtStart.eq_of_ofLexeme? {l : Lexeme} {first : StmtStart}
    (h : ofLexeme? l = some first) : l = first.lexeme := by
  unfold ofLexeme? at h
  split at h <;> cases h <;> rfl

/-- A statement starts with one of the tokens that the reader looks for. -/
theorem exists_stmtStart {ts : List Token} {s : Stmt} (h : Statement ts s) :
    ∃ (first : StmtStart) (x : Position) (us : List Token), ts = ⟨first.lexeme, x⟩ :: us := by
  cases h with
  | @ifThen x => exact ⟨.ifWord, x, _, rfl⟩
  | @ifElse x => exact ⟨.ifWord, x, _, rfl⟩
  | @whileLoop x => exact ⟨.whileWord, x, _, rfl⟩
  | @declare x => exact ⟨.varWord, x, _, rfl⟩
  | @declareWith x => exact ⟨.varWord, x, _, rfl⟩
  | @assign x _ _ name => exact ⟨.name name, x, _, rfl⟩
  | @leave x => exact ⟨.returnWord, x, _, rfl⟩
  | @leaveWith x => exact ⟨.returnWord, x, _, rfl⟩
  | @breakLoop x => exact ⟨.breakWord, x, _, rfl⟩
  | @continueLoop x => exact ⟨.continueWord, x, _, rfl⟩
  | @call x _ _ _ f => exact ⟨.name f, x, _, rfl⟩

/-- The table of variable types has exactly the words that are such types. -/
theorem variableType_iff (s : Symbol) (type : DeclaredType) :
    VariableType s type ↔ Parser.variableTypes.lookup s = some type := by
  constructor
  · rintro (_ | _ | _) <;> rfl
  · intro h
    cases s <;> cases h <;> constructor

/-- The table of result types has exactly the words that are such types. -/
theorem resultType_iff (s : Symbol) (type : DeclaredType) :
    ResultType s type ↔ Parser.resultTypes.lookup s = some type := by
  constructor
  · rintro ((_ | _ | _) | _) <;> rfl
  · intro h
    cases s <;> cases h <;> first | exact .nothing | exact .variable (by constructor)

namespace Parser

variable {σ : Type} [TokenSource σ] {P : Parser σ → Prop} {top : Parser σ}
  {nested : NestedReader top Stmt}

/-- Whether a loop of the current function is around the current token. -/
def inLoop (p : Parser σ) : Bool := decide (0 < p.loops)

/-- Reading tokens neither enters nor leaves a loop. -/
theorem Reads.inLoop_eq {p q : Parser σ} {ts : List Token} (h : p.Reads ts q) :
    q.inLoop = p.inLoop := by
  unfold inLoop
  rw [h.loops_eq]

/-- The tokens between `p` and `q` are a phrase with the tree `s`, whose
jumps have their loops, and which an `else` at `q` would not carry on. -/
def Follows (Phrase : List Token → Stmt → Prop) (p : Parser σ) (s : Stmt) (q : Parser σ) : Prop :=
  ∃ ts, p.Reads ts q ∧ Phrase ts s ∧ s.jumpsStay p.inLoop = true ∧
    (s.endsOpen = true → q.current.lexeme ≠ .symbol .elseWord)

/-- A reader reads exactly the phrases. -/
def Exact (reader : (p : Parser σ) → P p → Attempt σ p.size Stmt)
    (Phrase : List Token → Stmt → Prop) : Prop :=
  ∀ p hp s q, Started (reader p hp) s q ↔ Follows Phrase p s q

/-- A reader of the statements inside another one, which reads exactly
these, leaves the parser as it is where it finds none, and finds none at
the brace that closes a block. -/
structure ExactNested (nested : NestedReader top Stmt) : Prop where
  iff : Exact nested Statement
  still : ∀ p hp q h, nested p hp = .absent q h → q = p
  eq_absent : ∀ p hp, p.current.lexeme = .symbol .rightBrace →
    nested p hp = .absent p p.le_refl

/-! ### Expressions in statements -/

/-- An expression in front of a symbol that does not carry it on. -/
theorem expression?_then_iff {s : Symbol} (hs : s ∉ Level.top.continuations) (p : Parser σ)
    (e : Expr) (q : Parser σ) :
    (∃ r z, Started p.expression? e r ∧ r.Reads [mark s z] q) ↔
      ∃ ts z, p.Reads (ts ++ [mark s z]) q ∧ Derives .top ts e := by
  constructor
  · rintro ⟨r, z, he, hz⟩
    obtain ⟨ts, hts, hderives⟩ := expression?_sound p e r he
    exact ⟨ts, z, hts.trans hz, hderives⟩
  · rintro ⟨ts, z, hreads, hderives⟩
    obtain ⟨r, hts, hz⟩ := (reads_append _ _ _ _).mp hreads
    exact ⟨r, z, expression?_complete p ts e r hts hderives (hz.current ▸ .of_mark hs), hz⟩

/-- A condition is read exactly where an expression is spelled in
parentheses. -/
theorem gives_condition (p : Parser σ) (construct : Construct) (e : Expr) (q : Parser σ) :
    (p.condition construct).Gives e q ↔
      ∃ ts x y, p.Reads (mark .leftParen x :: (ts ++ [mark .rightParen y])) q ∧
        Derives .top ts e := by
  have hthen := expression?_then_iff (σ := σ) (s := .rightParen) (by decide)
  rw [condition, Parsed.gives_andThen]
  constructor
  · rintro ⟨_, q₁, hq₁, hopen, h⟩
    obtain ⟨x, hx⟩ := (gives_expect _ _ _ _).mp hopen
    split at h
    · rw [Parsed.gives_error] at h
      exact h.elim
    · rename_i read hread
      rw [Parsed.gives_loose, Parsed.gives_andThen] at h
      obtain ⟨e, q₂, hq₂, he, h⟩ := h
      rw [Parsed.gives_loose, Parsed.gives_map] at h
      obtain ⟨_, hclose, rfl⟩ := h
      obtain ⟨z, hz⟩ := (gives_expect _ _ _ _).mp hclose
      obtain ⟨ts, y, hts, hderives⟩ := (hthen q₁ e q).mp ⟨q₂, z, ⟨read, hread, he⟩, hz⟩
      exact ⟨ts, x, y, hx.cons hts, hderives⟩
  · rintro ⟨ts, x, y, hreads, hderives⟩
    obtain ⟨q₁, hx, hts⟩ := (reads_cons _ _ _ _).mp hreads
    obtain ⟨q₂, z, ⟨read, hread, he⟩, hz⟩ := (hthen q₁ e q).mpr ⟨ts, y, hts, hderives⟩
    refine ⟨(), q₁, hx.size_lt, (gives_expect _ _ _ _).mpr ⟨x, hx⟩, ?_⟩
    simp only [hread, Parsed.gives_loose]
    rw [Parsed.gives_andThen]
    refine ⟨e, q₂, he.size_lt, he, ?_⟩
    rw [Parsed.gives_loose, Parsed.gives_map]
    exact ⟨(), (gives_expect _ _ _ _).mpr ⟨z, hz⟩, rfl⟩

/-- A statement that is closed is read exactly if its end is read with it. -/
theorem gives_closed {n : Nat} (read : Parsed σ n Stmt) (s : Stmt) (q : Parser σ) :
    (closed read).Gives s q ↔ ∃ r z, read.Gives s r ∧ r.Reads [mark .semicolon z] q := by
  rw [closed, Parsed.gives_andThen]
  constructor
  · rintro ⟨s, r, hr, hs, h⟩
    rw [Parsed.gives_loose, Parsed.gives_map] at h
    obtain ⟨_, hclose, rfl⟩ := h
    obtain ⟨z, hz⟩ := (gives_expect _ _ _ _).mp hclose
    exact ⟨r, z, hs, hz⟩
  · rintro ⟨r, z, hs, hz⟩
    refine ⟨s, r, hs.size_lt, hs, ?_⟩
    rw [Parsed.gives_loose, Parsed.gives_map]
    exact ⟨(), (gives_expect _ _ _ _).mpr ⟨z, hz⟩, rfl⟩

/-! ### Blocks and bodies -/

/-- Statements are read only where they are spelled, with jumps that stay
inside. -/
theorem statements_sound (hnested : ExactNested nested) (p : Parser σ) (hp : p.size < top.size)
    (ss : List Stmt) (q : Parser σ) (h : (statements nested p hp).Gives ss q) :
    ∃ ts, p.Reads ts q ∧ Statements ts ss ∧ jumpsStayAll p.inLoop ss = true := by
  -- A statement has a first token, so the rest of the block stands at a smaller parser.
  induction hn : p.size using Nat.strongRecOn generalizing p ss with
  | ind n ih =>
    rw [statements] at h
    split at h
    · rename_i habsent
      obtain rfl := hnested.still _ _ _ _ habsent
      obtain ⟨rfl, rfl⟩ := (Parsed.gives_done _ _ _ _ _).mp h
      exact ⟨[], rfl, .nil, rfl⟩
    · rename_i read hread
      rw [Parsed.gives_loose, Parsed.gives_andThen] at h
      obtain ⟨s, q₁, hq₁, hs, h⟩ := h
      rw [Parsed.gives_map] at h
      obtain ⟨ss, hss, rfl⟩ := h
      obtain ⟨ts, hts, hstatement, hjumps, -⟩ := (hnested.iff p hp s q₁).mp ⟨read, hread, hs⟩
      obtain ⟨us, hus, hstatements, hjumps'⟩ := ih q₁.size (by omega) q₁ _ ss hss rfl
      rw [hts.inLoop_eq] at hjumps'
      exact ⟨_, hts.trans hus, .cons hstatement hstatements, by
        rw [jumpsStayAll, hjumps, hjumps']; rfl⟩

/-- Behind a statement of a block comes a further one, or the brace, but
no `else`. -/
theorem ne_elseWord_of_statements {p q : Parser σ} {ts : List Token} {ss : List Stmt}
    (hreads : p.Reads ts q) (hstatements : Statements ts ss)
    (hend : q.current.lexeme = .symbol .rightBrace) :
    p.current.lexeme ≠ .symbol .elseWord := by
  cases hstatements with
  | nil =>
    rw [reads_nil] at hreads
    rw [← hreads, hend]
    simp
  | cons hstatement _ =>
    obtain ⟨first, x, us, rfl⟩ := exists_stmtStart hstatement
    rw [hreads.current]
    cases first <;> simp [StmtStart.lexeme]

/-- Statements that are spelled are read up to the closing brace, if their
jumps stay inside. -/
theorem statements_complete (hnested : ExactNested nested) (p : Parser σ) (hp : p.size < top.size)
    (ts : List Token) (ss : List Stmt) (q : Parser σ) (hreads : p.Reads ts q)
    (hstatements : Statements ts ss) (hjumps : jumpsStayAll p.inLoop ss = true)
    (hend : q.current.lexeme = .symbol .rightBrace) : (statements nested p hp).Gives ss q := by
  induction ss generalizing p ts with
  | nil =>
    cases hstatements
    rw [reads_nil] at hreads
    subst hreads
    rw [statements, hnested.eq_absent q hp hend]
    simp
  | cons s ss ih =>
    cases hstatements with
    | @cons ts us _ _ hstatement hstatements =>
      obtain ⟨q₁, hts, hus⟩ := (reads_append _ _ _ _).mp hreads
      rw [jumpsStayAll, Bool.and_eq_true] at hjumps
      -- So the statement may end in an open `if`: no `else` can reach it.
      have helse := ne_elseWord_of_statements hus hstatements hend
      obtain ⟨read, hread, hgives⟩ := (hnested.iff p hp s q₁).mpr
        ⟨ts, hts, hstatement, hjumps.1, fun _ => helse⟩
      rw [statements, hread]
      simp only [Parsed.gives_loose]
      rw [Parsed.gives_andThen]
      refine ⟨s, q₁, hgives.size_lt, hgives, ?_⟩
      rw [Parsed.gives_map]
      have hlt : q₁.size < top.size := Nat.lt_of_le_of_lt hts.size_le hp
      exact ⟨ss, ih q₁ hlt us hus hstatements (hts.inLoop_eq.symm ▸ hjumps.2), rfl⟩

/-- A block is read exactly where its braces stand around its statements. -/
theorem started_block?_iff (hnested : ExactNested nested) (p : Parser σ) (hp : p.size ≤ top.size)
    (ss : List Stmt) (x : Position) (q : Parser σ) :
    Started (block? nested p hp) (ss, x) q ↔
      ∃ ts y, p.Reads (mark .leftBrace x :: (ts ++ [mark .rightBrace y])) q ∧
        Statements ts ss ∧ jumpsStayAll p.inLoop ss = true := by
  rw [block?, Started.map_iff]
  constructor
  · rintro ⟨opened, hopened, h⟩
    rw [Parsed.gives_andThen] at h
    obtain ⟨⟨_, x'⟩, q₁, hq₁, hopen, h⟩ := h
    have hx := (started_acceptSymbol?_only p .leftBrace _ x' q₁).mp ⟨opened, hopened, hopen⟩
    dsimp only at h
    rw [Parsed.gives_andThen] at h
    obtain ⟨ss', q₂, hq₂, hss, h⟩ := h
    rw [Parsed.gives_loose, Parsed.gives_map] at h
    obtain ⟨_, hclose, heq⟩ := h
    cases heq
    obtain ⟨y, hy⟩ := (gives_expect _ _ _ _).mp hclose
    obtain ⟨ts, hts, hstatements, hjumps⟩ := statements_sound hnested q₁ _ ss q₂ hss
    -- The brace neither enters nor leaves a loop.
    rw [hx.inLoop_eq] at hjumps
    exact ⟨ts, y, hx.cons (hts.trans hy), hstatements, hjumps⟩
  · rintro ⟨ts, y, hreads, hstatements, hjumps⟩
    obtain ⟨q₁, hx, hreads⟩ := (reads_cons _ _ _ _).mp hreads
    obtain ⟨q₂, hts, hy⟩ := (reads_append _ _ _ _).mp hreads
    obtain ⟨opened, hopened, hgives⟩ := (started_acceptSymbol?_only p .leftBrace () x q₁).mpr hx
    have hlt : q₁.size < top.size := Nat.lt_of_lt_of_le hx.size_lt hp
    have hss := statements_complete hnested q₁ hlt ts ss q₂ hts hstatements
      (hx.inLoop_eq.symm ▸ hjumps) (by rw [hy.current])
    refine ⟨opened, hopened, ?_⟩
    rw [Parsed.gives_andThen]
    refine ⟨((), x), q₁, hgives.size_lt, hgives, ?_⟩
    dsimp only
    rw [Parsed.gives_andThen]
    refine ⟨ss, q₂, hss.size_lt, hss, ?_⟩
    rw [Parsed.gives_loose, Parsed.gives_map]
    exact ⟨(), (gives_expect _ _ _ _).mpr ⟨y, hy⟩, rfl⟩

/-- A block is absent exactly if the current token is no opening brace,
and then the parser is as it was. -/
theorem block?_eq_absent_iff (nested : NestedReader top Stmt) (p : Parser σ)
    (hp : p.size ≤ top.size) (q : Parser σ) (h : q.size ≤ p.size) :
    block? nested p hp = .absent q h ↔ q = p ∧ p.current.lexeme ≠ .symbol .leftBrace := by
  unfold block?
  rw [Attempt.map_eq_absent_iff, acceptSymbol?_only_eq_absent_iff]

/-- A body is read exactly where a block or a statement is spelled. -/
theorem body?_exact (hnested : ExactNested nested) : Exact (body? nested) Instruction := by
  intro p hp s q
  have hblock := started_block?_iff hnested p (le_of_lt hp)
  rw [body?]
  constructor
  · intro h
    split at h
    · rename_i read hread
      rw [Started.found_iff, Parsed.gives_map] at h
      obtain ⟨⟨ss, x⟩, hss, rfl⟩ := h
      obtain ⟨ts, y, hts, hstatements, hjumps⟩ := (hblock ss x q).mp ⟨read, hread, hss⟩
      exact ⟨_, hts, .block hstatements, by rwa [Stmt.jumpsStay], by simp [Stmt.endsOpen]⟩
    · rename_i habsent
      obtain ⟨rfl, -⟩ := (block?_eq_absent_iff _ _ _ _ _).mp habsent
      rw [Started.within_iff] at h
      obtain ⟨ts, hts, hstatement, hjumps, helse⟩ := (hnested.iff _ _ s q).mp h
      exact ⟨ts, hts, .statement hstatement, hjumps, helse⟩
  · rintro ⟨ts, hts, hinstruction, hjumps, helse⟩
    cases hinstruction with
    | statement hstatement =>
      -- No statement starts with a brace, so the block does not start.
      have hnoBlock : block? nested p (le_of_lt hp) = .absent p p.le_refl := by
        obtain ⟨first, x, us, rfl⟩ := exists_stmtStart hstatement
        rw [block?_eq_absent_iff, hts.current]
        cases first <;> simp [StmtStart.lexeme]
      rw [hnoBlock]
      simp only [Started.within_iff]
      exact (hnested.iff p hp s q).mpr ⟨ts, hts, hstatement, hjumps, helse⟩
    | @block x y ts ss hstatements =>
      rw [Stmt.jumpsStay] at hjumps
      obtain ⟨read, hread, hss⟩ := (hblock ss x q).mpr ⟨ts, y, hts, hstatements, hjumps⟩
      rw [hread]
      simp only [Started.found_iff]
      rw [Parsed.gives_map]
      exact ⟨(ss, x), hss, rfl⟩

/-- A body that has to be there is read exactly where one is spelled. -/
theorem gives_expectBody (hnested : ExactNested nested) (construct : Construct) (p : Parser σ)
    (hp : p.size < top.size) (s : Stmt) (q : Parser σ) :
    (expectBody nested construct p hp).Gives s q ↔ Follows Instruction p s q := by
  rw [expectBody, Parsed.gives_orError]
  exact body?_exact hnested p hp s q

/-! ### Branches and loops -/

/-- The rest of a phrase behind its first token, which the reader has
already read. -/
abbrev Behind (first : StmtStart) (x : Position) (ts : List Token) (s : Stmt) : Prop :=
  Statement (⟨first.lexeme, x⟩ :: ts) s

/-- What is read behind `if` makes a branch. -/
theorem ifRest_sound (hnested : ExactNested nested) (x : Position) (p : Parser σ)
    (hp : p.size < top.size) (s : Stmt) (q : Parser σ)
    (h : (ifRest nested x p hp).Gives s q) : Follows (Behind .ifWord x) p s q := by
  rw [ifRest, Parsed.gives_andThen] at h
  obtain ⟨c, q₁, hq₁, hc, h⟩ := h
  obtain ⟨ts, y, z, hts, hderives⟩ := (gives_condition _ _ _ _).mp hc
  rw [Parsed.gives_loose, Parsed.gives_andThen] at h
  obtain ⟨thenBody, q₂, hq₂, hthen, h⟩ := h
  obtain ⟨us, hus, hinstruction, hjumps, helse⟩ :=
    (gives_expectBody hnested _ _ _ _ _).mp hthen
  rw [hts.inLoop_eq] at hjumps
  split at h
  · rename_i habsent
    obtain ⟨rfl, hnoElse⟩ := (acceptSymbol?_only_eq_absent_iff _ _ _ _).mp habsent
    obtain ⟨rfl, rfl⟩ := (Parsed.gives_done _ _ _ _ _).mp h
    refine ⟨_, hts.trans hus, ?_, by simp [Stmt.jumpsStay, jumpsStayOptional, hjumps], ?_⟩
    · have := Statement.ifThen (p := x) (q := y) (r := z) hderives hinstruction
      simpa [Behind, StmtStart.lexeme] using this
    · -- The reader has looked for an `else` and found none.
      exact fun _ => hnoElse
  · rename_i orElse horElse
    rw [Parsed.gives_loose, Parsed.gives_andThen] at h
    obtain ⟨⟨_, w⟩, q₃, hq₃, hw, h⟩ := h
    have hw := (started_acceptSymbol?_only _ _ _ _ _).mp ⟨orElse, horElse, hw⟩
    rw [Parsed.gives_loose, Parsed.gives_map] at h
    obtain ⟨elseBody, hbody, rfl⟩ := h
    obtain ⟨vs, hvs, hinstruction', hjumps', helse'⟩ :=
      (gives_expectBody hnested _ _ _ _ _).mp hbody
    rw [hw.inLoop_eq, hus.inLoop_eq, hts.inLoop_eq] at hjumps'
    -- The body in front of the `else` has seen it and left it alone.
    have hclosed : thenBody.endsOpen = false := by
      rw [Bool.eq_false_iff]
      intro hopen
      exact helse hopen (by rw [hw.current])
    refine ⟨_, hts.trans (hus.trans (hw.cons hvs)), ?_, ?_, ?_⟩
    · have := Statement.ifElse (p := x) (q := y) (r := z) (w := w) hderives hinstruction hclosed
        hinstruction'
      simpa [Behind, StmtStart.lexeme] using this
    · simp [Stmt.jumpsStay, jumpsStayOptional, hjumps, hjumps']
    · rwa [Stmt.endsOpen]

/-- What a branch has behind `if` is read. -/
theorem ifRest_complete (hnested : ExactNested nested) (x : Position) (p : Parser σ)
    (hp : p.size < top.size) (s : Stmt) (q : Parser σ)
    (h : Follows (Behind .ifWord x) p s q) : (ifRest nested x p hp).Gives s q := by
  obtain ⟨ts, hreads, hstatement, hjumps, helse⟩ := h
  cases hstatement with
  | @ifThen _ y z ts us c body hderives hinstruction =>
    obtain ⟨q₁, hts, hus⟩ := (reads_append p q (mark .leftParen y :: (ts ++ [mark .rightParen z]))
      us).mp (by simpa using hreads)
    have hc := (gives_condition p .ifBranch c q₁).mpr ⟨ts, y, z, hts, hderives⟩
    -- No `else` follows the whole `if`, so none follows its body either.
    rw [Stmt.endsOpen] at helse
    simp only [Stmt.jumpsStay, jumpsStayOptional, Bool.and_true] at hjumps
    have hbody := (gives_expectBody hnested .ifBranch q₁ (lt_trans hc.size_lt hp) body q).mpr
      ⟨us, hus, hinstruction, hts.inLoop_eq.symm ▸ hjumps, fun _ => helse rfl⟩
    rw [ifRest, Parsed.gives_andThen]
    refine ⟨c, q₁, hc.size_lt, hc, ?_⟩
    rw [Parsed.gives_loose, Parsed.gives_andThen]
    refine ⟨body, q, hbody.size_lt, hbody, ?_⟩
    rw [(acceptSymbol?_only_eq_absent_iff q .elseWord q q.le_refl).mpr ⟨rfl, helse rfl⟩]
    exact (Parsed.gives_done _ _ _ _ _).mpr ⟨rfl, rfl⟩
  | @ifElse _ y z w ts us vs c thenBody elseBody hderives hthen hclosed helseBody =>
    obtain ⟨q₁, hts, hreads⟩ := (reads_append p q
      (mark .leftParen y :: (ts ++ [mark .rightParen z])) (us ++ mark .elseWord w :: vs)).mp
      (by simpa using hreads)
    obtain ⟨q₂, hus, hreads⟩ := (reads_append _ _ _ _).mp hreads
    obtain ⟨q₃, hw, hvs⟩ := (reads_cons _ _ _ _).mp hreads
    have hc := (gives_condition p .ifBranch c q₁).mpr ⟨ts, y, z, hts, hderives⟩
    simp only [Stmt.jumpsStay, jumpsStayOptional, Bool.and_eq_true] at hjumps
    have hq₁ := lt_trans hc.size_lt hp
    -- The first body stands in front of an `else`. It is read up to there because it is closed.
    have hbody := (gives_expectBody hnested .ifBranch q₁ hq₁ thenBody q₂).mpr
      ⟨us, hus, hthen, hts.inLoop_eq.symm ▸ hjumps.1, by simp [hclosed]⟩
    have hq₃ := lt_trans hw.size_lt (lt_trans hbody.size_lt hq₁)
    have hloop : q₃.inLoop = p.inLoop := by
      rw [hw.inLoop_eq, hus.inLoop_eq, hts.inLoop_eq]
    have hbody' := (gives_expectBody hnested .elseBranch q₃ hq₃ elseBody q).mpr
      ⟨vs, hvs, helseBody, hloop ▸ hjumps.2, by rwa [Stmt.endsOpen] at helse⟩
    obtain ⟨orElse, horElse, hgives⟩ := (started_acceptSymbol?_only q₂ .elseWord () w q₃).mpr hw
    rw [ifRest, Parsed.gives_andThen]
    refine ⟨c, q₁, hc.size_lt, hc, ?_⟩
    rw [Parsed.gives_loose, Parsed.gives_andThen]
    refine ⟨thenBody, q₂, hbody.size_lt, hbody, ?_⟩
    rw [horElse]
    simp only [Parsed.gives_loose]
    rw [Parsed.gives_andThen]
    refine ⟨((), w), q₃, hgives.size_lt, hgives, ?_⟩
    rw [Parsed.gives_loose, Parsed.gives_map]
    exact ⟨elseBody, hbody', rfl⟩

/-- Leaving a loop changes nothing but the count of loops. -/
theorem gives_leavingLoop {n : Nat} (read : Parsed σ n Stmt) (s : Stmt) (q : Parser σ) :
    (leavingLoop read).Gives s q ↔ ∃ r, read.Gives s r ∧ q = r.leaveLoop := by
  cases read with
  | error e r => simp [leavingLoop]
  | ok s' r hr =>
    constructor
    · intro h
      cases h
      exact ⟨r, rfl, rfl⟩
    · rintro ⟨r', h, rfl⟩
      cases h
      rfl

/-- The body of a loop stands in one more loop than the loop itself, and
the count is the old one behind it. -/
theorem follows_enterLoop_iff (Phrase : List Token → Stmt → Prop) (p : Parser σ) (s : Stmt)
    (q : Parser σ) :
    (∃ r, Follows Phrase p.enterLoop s r ∧ q = r.leaveLoop) ↔
      ∃ ts, p.Reads ts q ∧ Phrase ts s ∧ s.jumpsStay true = true ∧
        (s.endsOpen = true → q.current.lexeme ≠ .symbol .elseWord) := by
  have hin : p.enterLoop.inLoop = true := by
    simp [inLoop, enterLoop]
  have hreads := withLoops_reads_iff p (n := p.loops + 1)
  constructor
  · -- Whatever is read in the body, the count that `enterLoop` has raised is still there.
    rintro ⟨_, ⟨ts, hts, hphrase, hjumps, helse⟩, rfl⟩
    obtain ⟨r, hr, rfl⟩ := (hreads _ ts).mp hts
    have hleave : (r.withLoops (p.loops + 1)).leaveLoop = r := by
      simp [leaveLoop, withLoops, ← hr.loops_eq]
    rw [hleave]
    exact ⟨ts, hr, hphrase, hin ▸ hjumps, helse⟩
  · rintro ⟨ts, hts, hphrase, hjumps, helse⟩
    have hinside := (hreads (q.withLoops (p.loops + 1)) ts).mpr ⟨q, hts, rfl⟩
    refine ⟨q.withLoops (p.loops + 1), ⟨ts, hinside, hphrase, ?_, helse⟩, ?_⟩
    · rw [hin]
      exact hjumps
    · simp [leaveLoop, withLoops, ← hts.loops_eq]

/-- What is read behind `while` makes a loop. -/
theorem whileRest_sound (hnested : ExactNested nested) (x : Position) (p : Parser σ)
    (hp : p.size < top.size) (s : Stmt) (q : Parser σ)
    (h : (whileRest nested x p hp).Gives s q) : Follows (Behind .whileWord x) p s q := by
  rw [whileRest, Parsed.gives_andThen] at h
  obtain ⟨c, q₁, hq₁, hc, h⟩ := h
  obtain ⟨ts, y, z, hts, hderives⟩ := (gives_condition _ _ _ _).mp hc
  dsimp only at h
  split at h
  · rw [Parsed.gives_error] at h
    exact h.elim
  · rename_i read hread
    rw [Parsed.gives_loose] at h
    -- The sizes of `q₁` and `q₁.enterLoop` are the same number.
    obtain ⟨body, hbody, rfl⟩ := (Parsed.gives_map _ (leavingLoop read) _ _).mp h
    obtain ⟨r, hr, hleave⟩ := (gives_leavingLoop _ _ _).mp hbody
    have hfollows := (body?_exact hnested _ _ body r).mp ⟨read, hread, hr⟩
    obtain ⟨us, hus, hinstruction, hjumps, helse⟩ :=
      (follows_enterLoop_iff _ _ _ _).mp ⟨r, hfollows, hleave⟩
    refine ⟨_, hts.trans hus, ?_, by rwa [Stmt.jumpsStay], by rwa [Stmt.endsOpen]⟩
    have := Statement.whileLoop (p := x) (q := y) (r := z) hderives hinstruction
    simpa [Behind, StmtStart.lexeme] using this

/-- What a loop has behind `while` is read. -/
theorem whileRest_complete (hnested : ExactNested nested) (x : Position) (p : Parser σ)
    (hp : p.size < top.size) (s : Stmt) (q : Parser σ)
    (h : Follows (Behind .whileWord x) p s q) : (whileRest nested x p hp).Gives s q := by
  obtain ⟨ts, hreads, hstatement, hjumps, helse⟩ := h
  cases hstatement with
  | @whileLoop _ y z ts us c body hderives hinstruction =>
    obtain ⟨q₁, hts, hus⟩ := (reads_append p q (mark .leftParen y :: (ts ++ [mark .rightParen z]))
      us).mp (by simpa using hreads)
    have hc := (gives_condition p .whileLoop c q₁).mpr ⟨ts, y, z, hts, hderives⟩
    rw [Stmt.jumpsStay] at hjumps
    rw [Stmt.endsOpen] at helse
    obtain ⟨r, hfollows, hleave⟩ := (follows_enterLoop_iff Instruction q₁ body q).mpr
      ⟨us, hus, hinstruction, hjumps, helse⟩
    obtain ⟨read, hread, hgives⟩ := (body?_exact hnested _
      (size_enterLoop_lt (lt_trans hc.size_lt hp)) body r).mpr hfollows
    rw [whileRest, Parsed.gives_andThen]
    refine ⟨c, q₁, hc.size_lt, hc, ?_⟩
    simp only [hread, Parsed.gives_loose]
    exact (Parsed.gives_map _ (leavingLoop read) _ _).mpr
      ⟨body, (gives_leavingLoop _ _ _).mpr ⟨r, hgives, hleave⟩, rfl⟩

/-! ### Statements that hold no others -/

/-- A statement without jumps that no `else` can follow. -/
theorem Follows.of_plain {Phrase : List Token → Stmt → Prop} {p q : Parser σ} {ts : List Token}
    {s : Stmt} (hreads : p.Reads ts q) (hphrase : Phrase ts s)
    (hjumps : s.jumpsStay p.inLoop = true) (hopen : s.endsOpen = false) : Follows Phrase p s q :=
  ⟨ts, hreads, hphrase, hjumps, by simp [hopen]⟩

/-- The initial value of a variable, up to the semicolon. -/
theorem initialValue_then_iff (p : Parser σ) (value : Option Expr) (q : Parser σ) :
    (∃ r z, p.initialValue.Gives value r ∧ r.Reads [mark .semicolon z] q) ↔
      (value = none ∧ ∃ z, p.Reads [mark .semicolon z] q) ∨
        ∃ e a ts z, value = some e ∧ p.Reads (mark .assign a :: (ts ++ [mark .semicolon z])) q ∧
          Derives .top ts e := by
  rw [initialValue]
  constructor
  · rintro ⟨r, z, h, hz⟩
    split at h
    · rename_i habsent
      obtain ⟨rfl, -⟩ := (acceptSymbol?_only_eq_absent_iff _ _ _ _).mp habsent
      obtain ⟨rfl, rfl⟩ := (Parsed.gives_done _ _ _ _ _).mp h
      exact .inl ⟨rfl, z, hz⟩
    · rename_i assigned hassigned
      rw [Parsed.gives_loose, Parsed.gives_andThen] at h
      obtain ⟨⟨_, a⟩, q₁, hq₁, ha, h⟩ := h
      have ha := (started_acceptSymbol?_only _ _ _ _ _).mp ⟨assigned, hassigned, ha⟩
      rw [Parsed.gives_loose, Parsed.gives_map] at h
      obtain ⟨e, he, rfl⟩ := h
      obtain ⟨ts, z, hts, hderives⟩ := (expression?_then_iff (by decide) q₁ e q).mp
        ⟨r, z, (gives_expectExpression _ _ _).mp he, hz⟩
      exact .inr ⟨e, a, ts, z, rfl, ha.cons hts, hderives⟩
  · rintro (⟨rfl, z, hz⟩ | ⟨e, a, ts, z, rfl, hreads, hderives⟩)
    -- The semicolon that follows is no assignment, so there is no value.
    · refine ⟨p, z, ?_, hz⟩
      rw [(acceptSymbol?_only_eq_absent_iff p .assign p p.le_refl).mpr (by simp [hz.current])]
      exact (Parsed.gives_done _ _ _ _ _).mpr ⟨rfl, rfl⟩
    · obtain ⟨q₁, ha, hreads⟩ := (reads_cons _ _ _ _).mp hreads
      obtain ⟨r, z, he, hz⟩ := (expression?_then_iff (by decide) q₁ e q).mpr
        ⟨ts, z, hreads, hderives⟩
      obtain ⟨assigned, hassigned, ha⟩ := (started_acceptSymbol?_only p .assign () a q₁).mpr ha
      refine ⟨r, z, ?_, hz⟩
      rw [hassigned]
      simp only [Parsed.gives_loose]
      rw [Parsed.gives_andThen]
      refine ⟨((), a), q₁, ha.size_lt, ha, ?_⟩
      rw [Parsed.gives_loose, Parsed.gives_map]
      exact ⟨e, (gives_expectExpression _ _ _).mpr he, rfl⟩

/-- A declaration is read up to its initial value. -/
theorem gives_declareRest (x : Position) (p : Parser σ) (s : Stmt) (q : Parser σ) :
    (declareRest x p).Gives s q ↔
      ∃ name type value y w v symbol r, s = .declare name type value x ∧
        VariableType symbol type ∧
        p.Reads [word name y, mark .colon w, mark symbol v] r ∧
        r.initialValue.Gives value q := by
  rw [declareRest, Parsed.gives_andThen]
  constructor
  · rintro ⟨⟨name, y⟩, q₁, hq₁, hname, h⟩
    have hname := (gives_expectIdentifier _ _ _ _).mp hname
    rw [Parsed.gives_loose, Parsed.gives_andThen] at h
    obtain ⟨_, q₂, hq₂, hcolon, h⟩ := h
    obtain ⟨w, hcolon⟩ := (gives_expect _ _ _ _).mp hcolon
    rw [Parsed.gives_loose, Parsed.gives_andThen] at h
    obtain ⟨⟨type, v⟩, q₃, hq₃, htype, h⟩ := h
    obtain ⟨symbol, hsymbol, htype⟩ := (gives_expectAmong _ _ _ _ _).mp htype
    obtain ⟨value, hvalue, rfl⟩ := (Parsed.gives_map _ _ _ _).mp h
    exact ⟨name, type, value, y, w, v, symbol, q₃, rfl, (variableType_iff _ _).mpr hsymbol,
      hname.cons (hcolon.cons htype), hvalue⟩
  · rintro ⟨name, type, value, y, w, v, symbol, r, rfl, hsymbol, hreads, hvalue⟩
    obtain ⟨q₁, hname, hreads⟩ := (reads_cons _ _ _ _).mp hreads
    obtain ⟨q₂, hcolon, htype⟩ := (reads_cons _ _ _ _).mp hreads
    have hname := (gives_expectIdentifier _ _ _ _).mpr hname
    have hcolon := (gives_expect q₁ .colon () q₂).mpr ⟨w, hcolon⟩
    have htype := (gives_expectAmong q₂ variableTypes type v r).mpr
      ⟨symbol, (variableType_iff _ _).mp hsymbol, htype⟩
    refine ⟨(name, y), q₁, hname.size_lt, hname, ?_⟩
    dsimp only
    rw [Parsed.gives_loose, Parsed.gives_andThen]
    refine ⟨(), q₂, hcolon.size_lt, hcolon, ?_⟩
    rw [Parsed.gives_loose, Parsed.gives_andThen]
    refine ⟨(type, v), r, htype.size_lt, htype, ?_⟩
    dsimp only
    rw [Parsed.gives_map]
    exact ⟨value, hvalue, rfl⟩

/-- A declaration is read behind `var` exactly where one is spelled. -/
theorem closed_declareRest_iff (x : Position) (p : Parser σ) (s : Stmt) (q : Parser σ) :
    (closed (declareRest x p)).Gives s q ↔ Follows (Behind .varWord x) p s q := by
  rw [gives_closed]
  constructor
  · rintro ⟨r, z, h, hz⟩
    obtain ⟨name, type, value, y, w, v, symbol, t, rfl, htype, hhead, hvalue⟩ :=
      (gives_declareRest _ _ _ _).mp h
    rcases (initialValue_then_iff t value q).mp ⟨r, z, hvalue, hz⟩ with
      ⟨rfl, z, hz⟩ | ⟨e, a, ts, z, rfl, hts, hderives⟩
    · exact .of_plain (hhead.trans hz) (Statement.declare htype) rfl rfl
    · exact .of_plain (hhead.trans hts) (Statement.declareWith htype hderives) rfl rfl
  · rintro ⟨ts, hreads, hstatement, -, -⟩
    cases hstatement with
    | @declare _ y w v z name symbol type htype =>
      obtain ⟨t, hhead, hz⟩ := (reads_append p q [word name y, mark .colon w, mark symbol v]
        [mark .semicolon z]).mp hreads
      obtain ⟨r, z, hvalue, hz⟩ := (initialValue_then_iff t none q).mpr (.inl ⟨rfl, z, hz⟩)
      exact ⟨r, z, (gives_declareRest _ _ _ _).mpr
        ⟨name, type, none, y, w, v, symbol, t, rfl, htype, hhead, hvalue⟩, hz⟩
    | @declareWith _ y w v a z name symbol type ts e htype hderives =>
      obtain ⟨t, hhead, hts⟩ := (reads_append p q [word name y, mark .colon w, mark symbol v]
        (mark .assign a :: (ts ++ [mark .semicolon z]))).mp hreads
      obtain ⟨r, z, hvalue, hz⟩ := (initialValue_then_iff t (some e) q).mpr
        (.inr ⟨e, a, ts, z, rfl, hts, hderives⟩)
      exact ⟨r, z, (gives_declareRest _ _ _ _).mpr
        ⟨name, type, some e, y, w, v, symbol, t, rfl, htype, hhead, hvalue⟩, hz⟩

/-- What `return` has behind it is read exactly where it is spelled. -/
theorem closed_returnRest_iff (x : Position) (p : Parser σ) (s : Stmt) (q : Parser σ) :
    (closed (returnRest x p)).Gives s q ↔ Follows (Behind .returnWord x) p s q := by
  rw [gives_closed, returnRest]
  simp only [Parsed.gives_map, gives_optional]
  constructor
  · rintro ⟨r, z, ⟨value, ⟨rfl, h, habsent⟩ | ⟨e, rfl, he⟩, rfl⟩, hz⟩
    · obtain rfl := expression?_still habsent
      exact .of_plain hz Statement.leave rfl rfl
    · obtain ⟨ts, z, hts, hderives⟩ := (expression?_then_iff (by decide) p e q).mp ⟨r, z, he, hz⟩
      exact .of_plain hts (Statement.leaveWith hderives) rfl rfl
  · rintro ⟨ts, hreads, hstatement, -, -⟩
    cases hstatement with
    | @leave _ z =>
      -- A value is looked for, but the semicolon starts none.
      have habsent : p.expression? = .absent p p.le_refl :=
        expression?_eq_absent (s := .semicolon) (by rw [hreads.current]) (by decide) (by decide)
          (by decide)
      exact ⟨p, z, ⟨none, .inl ⟨rfl, p.le_refl, habsent⟩, rfl⟩, hreads⟩
    | @leaveWith _ z ts e hderives =>
      obtain ⟨r, z, he, hz⟩ := (expression?_then_iff (by decide) p e q).mpr
        ⟨ts, z, hreads, hderives⟩
      exact ⟨r, z, ⟨some e, .inr ⟨e, rfl, he⟩, rfl⟩, hz⟩

/-- A `break` or a `continue` is read exactly inside of a loop. -/
theorem closed_loopControl_iff (keyword : Symbol) (stmt : Position → Stmt) (x : Position)
    (p : Parser σ) (s : Stmt) (q : Parser σ) :
    (closed (loopControl keyword stmt x p)).Gives s q ↔
      s = stmt x ∧ p.inLoop = true ∧ ∃ z, p.Reads [mark .semicolon z] q := by
  rw [gives_closed, loopControl, inLoop, decide_eq_true_iff]
  constructor
  · rintro ⟨r, z, h, hz⟩
    split at h
    · -- Outside of loops the reader gives an error.
      rw [Parsed.gives_error] at h
      exact h.elim
    · rename_i hloops
      obtain ⟨rfl, rfl⟩ := (Parsed.gives_done _ _ _ _ _).mp h
      exact ⟨rfl, Nat.pos_of_ne_zero hloops, z, hz⟩
  · rintro ⟨rfl, hloops, z, hz⟩
    refine ⟨p, z, ?_, hz⟩
    rw [if_neg (Nat.ne_of_gt hloops)]
    exact (Parsed.gives_done _ _ _ _ _).mpr ⟨rfl, rfl⟩

/-- What is read behind a name makes an assignment or a call. -/
theorem closed_nameRest_sound (name : String) (x : Position) (p : Parser σ) (s : Stmt)
    (q : Parser σ) (h : (closed (nameRest name x p)).Gives s q) :
    Follows (Behind (.name name) x) p s q := by
  obtain ⟨r, z, h, hz⟩ := (gives_closed _ _ _).mp h
  rw [nameRest] at h
  split at h
  · rename_i assigned hassigned
    rw [Parsed.gives_andThen] at h
    obtain ⟨⟨_, a⟩, q₁, hq₁, ha, h⟩ := h
    have ha := (started_acceptSymbol?_only _ _ _ _ _).mp ⟨assigned, hassigned, ha⟩
    rw [Parsed.gives_loose, Parsed.gives_map] at h
    obtain ⟨e, he, rfl⟩ := h
    obtain ⟨ts, z, hts, hderives⟩ := (expression?_then_iff (by decide) q₁ e q).mp
      ⟨r, z, (gives_expectExpression _ _ _).mp he, hz⟩
    exact .of_plain (ha.cons hts) (Statement.assign hderives) rfl rfl
  · rename_i habsent
    obtain ⟨rfl, -⟩ := (acceptSymbol?_only_eq_absent_iff _ _ _ _).mp habsent
    split at h
    · rw [Parsed.gives_within, Parsed.gives_map] at h
      obtain ⟨args, hargs, rfl⟩ := h
      obtain ⟨ts, y, w, hts, harguments⟩ := callArguments_sound _ _ _ hargs
      refine .of_plain (hts.trans hz) ?_ rfl rfl
      have := Statement.call (p := x) (q := y) (r := w) (z := z) (f := name) harguments
      simpa [Behind, StmtStart.lexeme] using this
    · rw [Parsed.gives_error] at h
      exact h.elim

/-- What an assignment or a call has behind its name is read. -/
theorem closed_nameRest_complete (name : String) (x : Position) (p : Parser σ) (s : Stmt)
    (q : Parser σ) (h : Follows (Behind (.name name) x) p s q) :
    (closed (nameRest name x p)).Gives s q := by
  obtain ⟨ts, hreads, hstatement, -, -⟩ := h
  rw [gives_closed, nameRest]
  cases hstatement with
  | @assign _ a z _ ts e hderives =>
    obtain ⟨q₁, ha, hreads⟩ := (reads_cons _ _ _ _).mp hreads
    obtain ⟨r, z, he, hz⟩ := (expression?_then_iff (by decide) q₁ e q).mpr
      ⟨ts, z, hreads, hderives⟩
    obtain ⟨assigned, hassigned, ha⟩ := (started_acceptSymbol?_only p .assign () a q₁).mpr ha
    refine ⟨r, z, ?_, hz⟩
    rw [hassigned]
    dsimp only
    rw [Parsed.gives_andThen]
    refine ⟨((), a), q₁, ha.size_lt, ha, ?_⟩
    rw [Parsed.gives_loose, Parsed.gives_map]
    exact ⟨e, (gives_expectExpression _ _ _).mpr he, rfl⟩
  | @call _ y w z _ ts args harguments =>
    -- The reader tries an assignment first, and takes a call where a parenthesis stands instead.
    have hcurrent : p.current.lexeme = .symbol .leftParen := by
      rw [hreads.current]
    obtain ⟨r, hts, hz⟩ := (reads_append p q (mark .leftParen y :: (ts ++ [mark .rightParen w]))
      [mark .semicolon z]).mp (by simpa using hreads)
    have hargs := callArguments_complete p ts y w args r hts harguments
    have habsent := (acceptSymbol?_only_eq_absent_iff p .assign p p.le_refl).mpr
      (by simp [hcurrent])
    refine ⟨r, z, ?_, hz⟩
    rw [habsent]
    dsimp only
    rw [if_pos ((isAt_iff _ _).mpr hcurrent), Parsed.gives_within, Parsed.gives_map]
    exact ⟨args, hargs, rfl⟩

/-! ### All statements -/

/-- Behind its first token each statement is read exactly where it is
spelled. -/
theorem statementRest_iff (hnested : ExactNested nested) (first : StmtStart) (x : Position)
    (p : Parser σ) (hp : p.size < top.size) (s : Stmt) (q : Parser σ) :
    (statementRest nested first x p hp).Gives s q ↔ Follows (Behind first x) p s q := by
  cases first with
  | ifWord =>
    rw [statementRest, Parsed.gives_loose]
    exact ⟨ifRest_sound hnested x p hp s q, ifRest_complete hnested x p hp s q⟩
  | whileWord =>
    rw [statementRest, Parsed.gives_loose]
    exact ⟨whileRest_sound hnested x p hp s q, whileRest_complete hnested x p hp s q⟩
  | varWord =>
    rw [statementRest, Parsed.gives_loose]
    exact closed_declareRest_iff x p s q
  | returnWord => exact closed_returnRest_iff x p s q
  | breakWord =>
    rw [statementRest, closed_loopControl_iff]
    constructor
    · rintro ⟨rfl, hloop, z, hz⟩
      exact .of_plain hz Statement.breakLoop (by rwa [Stmt.jumpsStay]) rfl
    · rintro ⟨ts, hreads, hstatement, hjumps, -⟩
      cases hstatement with
      | @breakLoop _ z => exact ⟨rfl, by rwa [Stmt.jumpsStay] at hjumps, z, hreads⟩
  | continueWord =>
    rw [statementRest, closed_loopControl_iff]
    constructor
    · rintro ⟨rfl, hloop, z, hz⟩
      exact .of_plain hz Statement.continueLoop (by rwa [Stmt.jumpsStay]) rfl
    · rintro ⟨ts, hreads, hstatement, hjumps, -⟩
      cases hstatement with
      | @continueLoop _ z => exact ⟨rfl, by rwa [Stmt.jumpsStay] at hjumps, z, hreads⟩
  | name name =>
    rw [statementRest, Parsed.gives_loose]
    exact ⟨closed_nameRest_sound name x p s q, closed_nameRest_complete name x p s q⟩

/-- A statement is read exactly where one is spelled, if this holds for
the nested ones. -/
theorem statementOver_exact (hnested : ExactNested nested) :
    Exact (statementOver nested) Statement := by
  intro p hp s q
  rw [statementOver_eq, Started.map_iff]
  constructor
  · rintro ⟨started, hstarted, h⟩
    rw [Parsed.gives_andThen] at h
    obtain ⟨⟨first, x⟩, q₁, hq₁, hfirst, h⟩ := h
    obtain ⟨l, hl, hx⟩ := (started_accept? _ _ _ _ _).mp ⟨started, hstarted, hfirst⟩
    rw [StmtStart.eq_of_ofLexeme? hl] at hx
    obtain ⟨us, hus, hstatement, hjumps, helse⟩ :=
      (statementRest_iff hnested first x q₁ _ s q).mp h
    exact ⟨_, hx.cons hus, hstatement, hx.inLoop_eq ▸ hjumps, helse⟩
  · rintro ⟨ts, hreads, hstatement, hjumps, helse⟩
    obtain ⟨first, x, us, rfl⟩ := exists_stmtStart hstatement
    obtain ⟨q₁, hx, hus⟩ := (reads_cons _ _ _ _).mp hreads
    obtain ⟨started, hstarted, hfirst⟩ := (started_accept? p StmtStart.ofLexeme? first x q₁).mpr
      ⟨first.lexeme, StmtStart.ofLexeme?_lexeme first, hx⟩
    have hrest := (statementRest_iff hnested first x q₁ (lt_of_lt_of_le hx.size_lt hp) s q).mpr
      ⟨us, hus, hstatement, hx.inLoop_eq.symm ▸ hjumps, helse⟩
    refine ⟨started, hstarted, ?_⟩
    rw [Parsed.gives_andThen]
    exact ⟨(first, x), q₁, hfirst.size_lt, hfirst, hrest⟩

/-- No statement is found where the current token starts none, and then
the parser stays as it is. -/
theorem statement?_eq_absent_iff (p q : Parser σ) (h : q.size ≤ p.size) :
    p.statement? = .absent q h ↔ q = p ∧ StmtStart.ofLexeme? p.current.lexeme = none := by
  rw [statement?, statementOver_eq, Attempt.map_eq_absent_iff, accept?_eq_absent_iff _ _ rfl]

/-- A parser that finds no statement is as it was. -/
theorem statement?_still {p q : Parser σ} {h : q.size ≤ p.size}
    (habsent : p.statement? = .absent q h) : q = p :=
  ((statement?_eq_absent_iff p q h).mp habsent).1

/-- There is no statement in front of a closing brace. -/
theorem statement?_eq_absent_of_rightBrace {p : Parser σ}
    (h : p.current.lexeme = .symbol .rightBrace) : p.statement? = .absent p p.le_refl := by
  rw [statement?_eq_absent_iff, h]
  exact ⟨rfl, rfl⟩

/-- A statement is read exactly where the grammar derives it. -/
theorem statement?_iff (p : Parser σ) (s : Stmt) (q : Parser σ) :
    Started p.statement? s q ↔ Follows Statement p s q := by
  rw [statement?]
  -- Nested statements stand at smaller parsers.
  exact statementOver_exact ⟨fun p' _hp' s' q' => statement?_iff p' s' q',
    fun _ _ _ _ habsent => statement?_still habsent,
    fun _ _ h => statement?_eq_absent_of_rightBrace h⟩ p _ s q
termination_by p.size
decreasing_by exact _hp'

/-- Statements may be nested in statements. -/
theorem exactNested_statement? :
    ExactNested (fun q _ => q.statement? : NestedReader top Stmt) :=
  ⟨fun p _ => statement?_iff p, fun _ _ _ _ habsent => statement?_still habsent,
    fun _ _ h => statement?_eq_absent_of_rightBrace h⟩

/-- The body of a function is read exactly where the grammar derives it. -/
theorem started_functionBody?_iff (p : Parser σ) (ss : List Stmt) (x : Position) (q : Parser σ) :
    Started p.functionBody? (ss, x) q ↔
      ∃ ts y, p.Reads (mark .leftBrace x :: (ts ++ [mark .rightBrace y])) q ∧
        Statements ts ss ∧ jumpsStayAll p.inLoop ss = true :=
  started_block?_iff exactNested_statement? p _ ss x q

end Parser

end ScalarScript
