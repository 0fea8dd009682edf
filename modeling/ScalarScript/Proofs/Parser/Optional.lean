import ScalarScript.Proofs.Parser.Progress

/-!
# `ScalarScript.Proofs.Parser.Optional`: constructs that do not start

To look for a construct moves a parser from state to state, and an
attempt that finds nothing could leave it anywhere. Here is that it does
not: whether a construct starts is decided by the kind of the current
token, before anything is read. `Production` lists the constructs that a
parser looks for, `Production.first` the kinds of token that each of them
starts with.

`optional_production` is about a construct that may be left out. It is
left out exactly where the current token is of none of these kinds, and
then the parser stays as it is. Where the construct is read, the count of
loops behind it is the one in front of it, or 0 behind a function.
-/

set_option autoImplicit false

namespace ScalarScript

open Grammar

variable {σ : Type} [TokenSource σ]

/-! ### First tokens -/

/-- The kinds of token that an expression of a level starts with. -/
def Grammar.Level.first : Level → List Kind
  | .primary => [.symbol .leftParen, .number, .string, .identifier]
  | _ => [.symbol .minus, .symbol .notWord, .symbol .leftParen, .number, .string, .identifier]

/-- The kinds of token that a statement starts with. -/
def StmtStart.kinds : List Kind :=
  [.symbol .ifWord, .symbol .whileWord, .symbol .varWord, .symbol .returnWord, .symbol .breakWord,
    .symbol .continueWord, .identifier]

/-- A chain starts with whatever its operands start with. -/
theorem Grammar.Chain.first_operand (c : Chain) : c.operand.first = (Level.chain c).first := by
  cases c <;> rfl

/-- A lexeme starts no primary expression exactly if its kind is none of
the first ones. -/
theorem PrimaryStart.ofLexeme?_eq_none_iff (l : Lexeme) :
    ofLexeme? l = none ↔ l.kind ∉ Level.primary.first := by
  cases l with
  | symbol s => cases s <;> decide
  | _ => simp [ofLexeme?, Lexeme.kind, Level.first]

/-- A lexeme starts no operand exactly if it is no operator and starts no
primary expression. -/
theorem UnaryOp.not_mem_first_iff (l : Lexeme) :
    l.kind ∉ Level.unary.first ↔
      (∀ s, l = .symbol s → UnaryOp.ofSymbol? s = none) ∧ l.kind ∉ Level.primary.first := by
  cases l with
  | symbol s => cases s <;> simp [UnaryOp.ofSymbol?, Lexeme.kind, Level.first]
  | _ => simp [Lexeme.kind, Level.first]

/-- A lexeme starts no statement exactly if its kind is none of the first
ones. -/
theorem StmtStart.ofLexeme?_eq_none_iff (l : Lexeme) :
    ofLexeme? l = none ↔ l.kind ∉ kinds := by
  cases l with
  | symbol s => cases s <;> decide
  | _ => simp [ofLexeme?, Lexeme.kind, kinds]

/-- A lexeme has no name exactly if it is no identifier. -/
theorem Lexeme.name?_eq_none_iff (l : Lexeme) : l.name? = none ↔ l.kind ≠ .identifier := by
  cases l <;> simp [Lexeme.name?, Lexeme.kind]

/-- A lexeme is another symbol exactly if its kind is another one. -/
theorem Lexeme.ne_symbol_iff (l : Lexeme) (s : Symbol) : l ≠ .symbol s ↔ l.kind ≠ .symbol s := by
  cases l <;> simp [Lexeme.kind]

namespace Parser

variable {top : Parser σ}

/-- Each level is absent exactly where the current token does not start
it, and none of the levels that are tried moves the parser then. -/
theorem levelReader_eq_absent_iff (nested : NestedReader top Expr) (l : Level) (p : Parser σ)
    (hp : p.size ≤ top.size) (q : Parser σ) (h : q.size ≤ p.size) :
    levelReader nested l p hp = .absent q h ↔ q = p ∧ p.current.kind ∉ l.first := by
  induction l using levelReader.induct with
  | case1 c ih => rw [levelReader.eq_1, chain_eq_absent_iff, ih, c.first_operand]
  | case2 ih =>
    rw [levelReader.eq_2, comparison_eq_absent_iff, ih]
    rfl
  | case3 ih =>
    rw [levelReader.eq_3, unary_eq_absent_iff, ih, and_left_comm]
    exact and_congr_right fun _ => (UnaryOp.not_mem_first_iff _).symm
  | case4 =>
    rw [levelReader.eq_4, primary_eq_absent_iff]
    exact and_congr_right fun _ => PrimaryStart.ofLexeme?_eq_none_iff _

/-- At every level an expression is read only where one is spelled. -/
theorem levelReader_sound {nested : NestedReader top Expr} (hnested : SoundNested nested)
    (l : Level) : Sound (levelReader nested l) (Derives l) := by
  induction l using levelReader.induct with
  | case1 c ih =>
    rw [levelReader.eq_1]
    exact chain_sound ih
  | case2 ih =>
    rw [levelReader.eq_2]
    exact comparison_sound ih
  | case3 ih =>
    rw [levelReader.eq_3]
    exact unary_sound ih
  | case4 =>
    rw [levelReader.eq_4]
    exact primary_sound hnested

/-! ### Blocks, statements and instructions -/

/-- A block is absent exactly in front of a token of another kind than the
opening brace, and then the parser is as it was. -/
theorem block?_eq_absent_iff_kind (nested : NestedReader top Stmt) (p : Parser σ)
    (hp : p.size ≤ top.size) (q : Parser σ) (h : q.size ≤ p.size) :
    block? nested p hp = .absent q h ↔ q = p ∧ p.current.kind ≠ .symbol .leftBrace := by
  rw [block?_eq_absent_iff]
  exact and_congr_right fun _ => Lexeme.ne_symbol_iff _ _

/-- A statement is absent exactly in front of a token of a kind that
starts none, and then the parser is as it was. -/
theorem statement?_eq_absent_iff_kind (p q : Parser σ) (h : q.size ≤ p.size) :
    p.statement? = .absent q h ↔ q = p ∧ p.current.kind ∉ StmtStart.kinds := by
  rw [statement?_eq_absent_iff]
  exact and_congr_right fun _ => StmtStart.ofLexeme?_eq_none_iff _

/-- A block leaves the count of loops as it was. -/
theorem loops_of_started_block? {p : Parser σ} (hp : p.size ≤ top.size) {b : List Stmt × Position}
    {q : Parser σ} (h : Started (block? (fun q _ => q.statement?) p hp) b q) :
    q.loops = p.loops := by
  obtain ⟨ts, y, hreads, -⟩ :=
    (started_block?_iff exactNested_statement? p hp b.1 b.2 q).mp h
  exact hreads.loops_eq

/-- A statement leaves the count of loops as it was. -/
theorem loops_of_started_statement? {p : Parser σ} {s : Stmt} {q : Parser σ}
    (h : Started p.statement? s q) : q.loops = p.loops := by
  obtain ⟨ts, hreads, -⟩ := (statement?_iff p s q).mp h
  exact hreads.loops_eq

/-- Reads the instruction that starts here, if one does: a block or a
single statement. -/
def instruction? : Reader top Stmt := fun p hp =>
  match block? (fun q _ => q.statement?) p hp with
  | .found read => .found (read.map fun b => .block b.1 b.2)
  | .absent q hq => q.statement?.within hq

/-- The body of an `if`, an `else` or a `while` is an instruction. -/
theorem body?_eq_instruction? (p : Parser σ) (hp : p.size < top.size) :
    body? (fun q _ => q.statement?) p hp = instruction? p (le_of_lt hp) :=
  rfl

/-- An instruction is looked for twice, as a block and as a statement, and
is absent where both are. -/
theorem instruction?_eq_absent_iff (p : Parser σ) (hp : p.size ≤ top.size) (q : Parser σ)
    (h : q.size ≤ p.size) :
    instruction? p hp = .absent q h ↔
      q = p ∧ p.current.kind ∉ Kind.symbol .leftBrace :: StmtStart.kinds := by
  rw [List.mem_cons, not_or, instruction?]
  split
  · rename_i read hread
    simp only [reduceCtorEq, false_iff]
    rintro ⟨rfl, hkind, -⟩
    have habsent := (block?_eq_absent_iff_kind (fun q _ => q.statement?) q hp q h).mpr ⟨rfl, hkind⟩
    rw [hread] at habsent
    cases habsent
  · rename_i q' hq' habsent
    obtain ⟨rfl, hkind⟩ := (block?_eq_absent_iff_kind _ _ _ _ _).mp habsent
    rw [Attempt.within_rfl, statement?_eq_absent_iff_kind]
    exact and_congr_right fun _ => (and_iff_right hkind).symm

/-- An instruction leaves the count of loops as it was. -/
theorem loops_of_started_instruction? {p : Parser σ} (hp : p.size ≤ top.size) {s : Stmt}
    {q : Parser σ} (h : Started (instruction? p hp) s q) : q.loops = p.loops := by
  rw [instruction?] at h
  split at h
  · rename_i read hread
    rw [Started.found_iff, Parsed.gives_map] at h
    obtain ⟨b, hb, -⟩ := h
    exact loops_of_started_block? hp ⟨read, hread, hb⟩
  · rename_i habsent
    obtain ⟨rfl, -⟩ := (block?_eq_absent_iff_kind _ _ _ _ _).mp habsent
    exact loops_of_started_statement? ((Started.within_iff _ _ _ _).mp h)

/-! ### Productions -/

/-- The constructs that are looked for at a parser. A part of a larger
construct is read inside of that, which starts at the parser `top`. -/
inductive Production (p : Parser σ) where
  | expression
  | level (l : Level) {top : Parser σ} (inside : p.size ≤ top.size)
  | block {top : Parser σ} (inside : p.size ≤ top.size)
  | statement
  | instruction {top : Parser σ} (inside : p.size ≤ top.size)
  | parameter
  | function

namespace Production

variable {p : Parser σ}

/-- What a production is read as. -/
def Tree : Production p → Type
  | expression | level _ _ => Expr
  | block _ => List Stmt × Position
  | statement | instruction _ => Stmt
  | parameter => Parameter
  | function => FunctionDecl

/-- Looks for a production. -/
def read? : (c : Production p) → Attempt σ p.size c.Tree
  | expression => p.expression?
  | level l inside => levelReader (fun q _ => q.expression?) l p inside
  | block inside => block? (fun q _ => q.statement?) p inside
  | statement => p.statement?
  | instruction inside => instruction? p inside
  | parameter => p.parameter?
  | function => p.function?

/-- The kinds of token that a production starts with. -/
def first : Production p → List Kind
  | expression => Level.top.first
  | level l _ => l.first
  | block _ => [.symbol .leftBrace]
  | statement => StmtStart.kinds
  | instruction _ => .symbol .leftBrace :: StmtStart.kinds
  | parameter | function => [.identifier]

/-- The count of loops behind a production. -/
def loopsBehind : Production p → Nat
  | function => 0
  | _ => p.loops

/-- A production is absent exactly where the current token does not start
it, and the parser has not moved then. -/
theorem read?_eq_absent_iff (c : Production p) (q : Parser σ) (h : q.size ≤ p.size) :
    c.read? = .absent q h ↔ q = p ∧ p.current.kind ∉ c.first := by
  have hname : p.current.lexeme.name? = none ↔ p.current.kind ∉ [Kind.identifier] := by
    rw [List.mem_singleton]
    exact Lexeme.name?_eq_none_iff _
  cases c with
  | expression =>
    rw [read?, expression?, ladder_eq]
    exact levelReader_eq_absent_iff _ .top p _ q h
  | level l inside => exact levelReader_eq_absent_iff _ l p inside q h
  | block inside =>
    rw [first, List.mem_singleton]
    exact block?_eq_absent_iff_kind _ p inside q h
  | statement => exact statement?_eq_absent_iff_kind p q h
  | instruction inside => exact instruction?_eq_absent_iff p inside q h
  | parameter => exact (parameter?_eq_absent_iff p q h).trans (and_congr_right fun _ => hname)
  | function => exact (function?_eq_absent_iff p q h).trans (and_congr_right fun _ => hname)

/-- A production that is found leaves its own count of loops behind. -/
theorem loops_of_started (c : Production p) {a : c.Tree} {q : Parser σ}
    (h : Started c.read? a q) : q.loops = c.loopsBehind := by
  cases c with
  | expression =>
    obtain ⟨ts, hreads, -⟩ := expression?_sound p a q h
    exact hreads.loops_eq
  | level l inside =>
    obtain ⟨ts, hreads, -⟩ := levelReader_sound soundNested_expression? l p inside a q h
    exact hreads.loops_eq
  | block inside => exact loops_of_started_block? inside h
  | statement => exact loops_of_started_statement? h
  | instruction inside => exact loops_of_started_instruction? inside h
  | parameter =>
    obtain ⟨ts, hreads, -⟩ := (started_parameter?_iff p a q).mp h
    exact hreads.loops_eq
  | function =>
    -- The body is read outside of all loops.
    obtain ⟨ts, hreads, -⟩ := function?_sound p a q h
    exact hreads.loops_eq

end Production

/-- A production that may be left out is left out exactly where the
current token does not start it, and the parser stays as it is. Where it
is read, it leaves no loop that it has entered. -/
theorem optional_production (p : Parser σ) (c : Production p) :
    (∀ q, (p.optional c.read?).Gives none q ↔ p.current.kind ∉ c.first ∧ q = p) ∧
    ∀ a q, (p.optional c.read?).Gives (some a) q → q.loops = c.loopsBehind := by
  constructor
  · intro q
    rw [gives_optional]
    constructor
    · rintro (⟨-, h, habsent⟩ | ⟨a, hnone, -⟩)
      · obtain ⟨rfl, hkind⟩ := (c.read?_eq_absent_iff q h).mp habsent
        exact ⟨hkind, rfl⟩
      · cases hnone
    · rintro ⟨hkind, rfl⟩
      exact .inl ⟨rfl, q.le_refl, (c.read?_eq_absent_iff q q.le_refl).mpr ⟨rfl, hkind⟩⟩
  · intro a q h
    rcases (gives_optional p c.read? (some a) q).mp h with ⟨hnone, -⟩ | ⟨b, hb, hstarted⟩
    · cases hnone
    · cases hb
      exact c.loops_of_started hstarted

end Parser

end ScalarScript
