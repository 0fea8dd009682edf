import ScalarScript.Stmt
import ScalarScript.Expr.Parser

/-!
# `ScalarScript.Stmt.Parser`: reading statements

    statement := "if" condition body ("else" body)?
               | "while" condition body
               | "var" name ":" type ("=" expression)? ";"
               | "return" expression? ";"
               | ("break" | "continue") ";"
               | name "=" expression ";"
               | name "(" arguments ")" ";"
    condition := "(" expression ")"
    body      := block | statement
    block     := "{" statement* "}"

An `else` belongs to the nearest `if`. The parser counts the loops
around the current token, and `break` and `continue` need at least one.
When the body of a loop is in error, the count stays as it is there.
-/

set_option autoImplicit false

namespace ScalarScript

/-- How a statement starts. -/
inductive StmtStart where
  | ifWord
  | whileWord
  | varWord
  | returnWord
  | breakWord
  | continueWord
  | name (s : String)
  deriving DecidableEq, Repr

namespace StmtStart

/-- The statement that a symbol starts. -/
def ofSymbol? : Symbol → Option StmtStart
  | .ifWord => some .ifWord
  | .whileWord => some .whileWord
  | .varWord => some .varWord
  | .returnWord => some .returnWord
  | .breakWord => some .breakWord
  | .continueWord => some .continueWord
  | _ => none

/-- Whether a token of this kind starts a statement. -/
def isStart : Kind → Bool
  | .symbol s => (ofSymbol? s).isSome
  | .identifier => true
  | _ => false

/-- The statement that a token of a kind and with a value starts. -/
def ofParts? (kind : Kind) (value : Option TokenValue) : Option StmtStart :=
  match kind with
  | .symbol s => ofSymbol? s
  | .identifier => (value.bind TokenValue.text?).map .name
  | _ => none

/-- The statement that a lexeme starts. -/
def ofLexeme? : Lexeme → Option StmtStart
  | .symbol .ifWord => some .ifWord
  | .symbol .whileWord => some .whileWord
  | .symbol .varWord => some .varWord
  | .symbol .returnWord => some .returnWord
  | .symbol .breakWord => some .breakWord
  | .symbol .continueWord => some .continueWord
  | .identifier s => some (.name s)
  | _ => none

/-- A kind of token starts a statement exactly if its lexeme does. -/
theorem isStart_kind (l : Lexeme) : isStart l.kind = (ofLexeme? l).isSome := by
  cases l with
  | symbol s => cases s <;> rfl
  | _ => rfl

/-- The kind and the value of a lexeme start the same statement as the
lexeme itself. -/
theorem ofParts?_of_ofLexeme? (l : Lexeme) (first : StmtStart)
    (h : ofLexeme? l = some first) : ofParts? l.kind l.value = some first := by
  cases l with
  | symbol s => cases s <;> exact h
  | identifier s => exact h
  | _ => cases h

end StmtStart

namespace Parser

variable {σ : Type} [TokenSource σ] {top : Parser σ}

/-- The types of variables. -/
def variableTypes : List (Symbol × DeclaredType) :=
  [(.intWord, .int), (.floatWord, .float), (.stringWord, .string)]

/-- The types of results. -/
def resultTypes : List (Symbol × DeclaredType) :=
  variableTypes ++ [(.nothingWord, .nothing)]

/-- Reads the condition of an `if` or a `while` and the parentheses around
it. -/
def condition (p : Parser σ) (construct : Construct) : Parsed σ p.size Expr :=
  (p.expect .leftParen).andThen fun _ q _ =>
    match q.expression? with
    | .absent r _ => .error (.missingCondition construct r.current.position) r
    | .found read => .loose <| read.andThen fun e r _ =>
      .loose <| (r.expect .rightParen).map fun _ => e

/-- Reads statements as long as one starts. -/
def statements (nested : NestedReader top Stmt) (p : Parser σ) (hp : p.size < top.size) :
    Parsed σ (p.size + 1) (List Stmt) :=
  match nested p hp with
  | .absent q hq => .done [] q hq
  | .found read => .loose <| read.andThen fun s q hq =>
    have hq' := lt_trans hq hp
    (statements nested q hq').map fun ss => s :: ss
termination_by p.size
decreasing_by exact hq

/-- Reads a block that starts here: its statements and its place. -/
def block? (nested : NestedReader top Stmt) : Reader top (List Stmt × Position) := fun p hp =>
  (p.acceptSymbol? (only .leftBrace)).map fun opened => opened.andThen fun (_, position) q hq =>
    have hq' := lt_of_lt_of_le hq hp
    (statements nested q hq').andThen fun ss r _ =>
      .loose <| (r.expect .rightBrace).map fun _ => (ss, position)

/-- Reads the body of an `if`, an `else` or a `while` that starts here: a
block or a single statement. -/
def body? (nested : NestedReader top Stmt) : NestedReader top Stmt := fun p hp =>
  match block? nested p (le_of_lt hp) with
  | .found read => .found (read.map fun (ss, position) => .block ss position)
  | .absent q hq => (nested q (lt_of_le_of_lt hq hp)).within hq

/-- Reads a body, which has to stand here. -/
def expectBody (nested : NestedReader top Stmt) (construct : Construct) (p : Parser σ)
    (hp : p.size < top.size) : Parsed σ p.size Stmt :=
  (body? nested p hp).orError fun q => .missingBody construct q.current.position

/-- The parser inside one more loop. -/
def enterLoop (p : Parser σ) : Parser σ :=
  { p with loops := p.loops + 1 }

/-- The parser behind a loop. -/
def leaveLoop (p : Parser σ) : Parser σ :=
  { p with loops := p.loops - 1 }

/-- Entering a loop takes no token. -/
theorem size_enterLoop_lt {p : Parser σ} (h : p.size < top.size) : p.enterLoop.size < top.size := h

/-- Leaves the loop that the parser behind a body is in. -/
def leavingLoop {n : Nat} (read : Parsed σ n Stmt) : Parsed σ n Stmt :=
  match read with
  | .ok s p h => .ok s p.leaveLoop h
  | .error e p => .error e p

/-- Reads the rest of an `if` behind its keyword. -/
def ifRest (nested : NestedReader top Stmt) (position : Position) (p : Parser σ)
    (hp : p.size < top.size) : Parsed σ p.size Stmt :=
  (p.condition .ifBranch).andThen fun c q hq =>
    have hq' := lt_trans hq hp
    .loose <| (expectBody nested .ifBranch q hq').andThen fun thenBody r hr =>
      match r.acceptSymbol? (only .elseWord) with
      | .absent s hs => .done (.ifStmt c thenBody none position) s hs
      | .found orElse => .loose <| orElse.andThen fun _ s hs =>
        have hr' := lt_trans hr hq'
        have hs' := lt_trans hs hr'
        .loose <| (expectBody nested .elseBranch s hs').map fun elseBody =>
          .ifStmt c thenBody (some elseBody) position

/-- Reads the rest of a `while` behind its keyword. -/
def whileRest (nested : NestedReader top Stmt) (position : Position) (p : Parser σ)
    (hp : p.size < top.size) : Parsed σ p.size Stmt :=
  (p.condition .whileLoop).andThen fun c q hq =>
    have hq' := lt_trans hq hp
    match body? nested q.enterLoop (size_enterLoop_lt hq') with
    | .absent r _ => .error (.missingBody .whileLoop r.current.position) r.leaveLoop
    | .found read => .loose <| (leavingLoop read).map fun body => .whileStmt c body position

/-- Reads the initial value of a variable, which may be left out. -/
def initialValue (p : Parser σ) : Parsed σ (p.size + 1) (Option Expr) :=
  match p.acceptSymbol? (only .assign) with
  | .absent q hq => .done none q hq
  | .found assigned => .loose <| assigned.andThen fun _ q _ =>
    .loose <| q.expectExpression.map some

/-- Reads the rest of a declaration behind its keyword. -/
def declareRest (position : Position) (p : Parser σ) : Parsed σ p.size Stmt :=
  p.expectIdentifier.andThen fun (name, _) q _ =>
    .loose <| (q.expect .colon).andThen fun _ r _ =>
      .loose <| (r.expectAmong variableTypes).andThen fun (type, _) s _ =>
        s.initialValue.map fun value => .declare name type value position

/-- Reads the value of a `return`, which may be left out. -/
def returnRest (position : Position) (p : Parser σ) : Parsed σ (p.size + 1) Stmt :=
  (p.optional p.expression?).map fun value => .returnStmt value position

/-- Gives a `break` or a `continue`, which has to stand in a loop. -/
def loopControl (keyword : Symbol) (stmt : Position → Stmt) (position : Position) (p : Parser σ) :
    Parsed σ (p.size + 1) Stmt :=
  if p.loops = 0 then .error (.controlOutsideLoop keyword position) p
  else .done (stmt position) p p.le_refl

/-- Reads what follows the name at the start of a statement: the rest of
an assignment or of a call. -/
def nameRest (name : String) (position : Position) (p : Parser σ) : Parsed σ p.size Stmt :=
  match p.acceptSymbol? (only .assign) with
  | .found assigned => assigned.andThen fun _ q _ =>
    .loose <| q.expectExpression.map fun e => .assign name e position
  | .absent q hq =>
    if q.isAt .leftParen then
      (q.callArguments.map fun args => .call name args position).within hq
    else .error (q.unexpected [.symbol .assign, .symbol .leftParen]) q

/-- Reads the semicolon behind a statement. -/
def closed {n : Nat} (read : Parsed σ n Stmt) : Parsed σ n Stmt :=
  read.andThen fun s q _ => .loose <| (q.expect .semicolon).map fun _ => s

/-- Reads what follows the first token of a statement. -/
def statementRest (nested : NestedReader top Stmt) (first : StmtStart) (position : Position)
    (p : Parser σ) (hp : p.size < top.size) : Parsed σ (p.size + 1) Stmt :=
  match first with
  | .ifWord => .loose <| ifRest nested position p hp
  | .whileWord => .loose <| whileRest nested position p hp
  | .varWord => .loose <| closed (declareRest position p)
  | .returnWord => closed (returnRest position p)
  | .breakWord => closed (loopControl .breakWord .breakStmt position p)
  | .continueWord => closed (loopControl .continueWord .continueStmt position p)
  | .name s => .loose <| closed (nameRest s position p)

/-- Reads the statement that starts here, over the reader of nested ones. -/
def statementOver (nested : NestedReader top Stmt) : Reader top Stmt := fun p hp =>
  (p.take? StmtStart.isStart StmtStart.ofParts?).map fun started =>
    started.andThen fun (first, position) q hq =>
      statementRest nested first position q (lt_of_lt_of_le hq hp)

/-- A statement is its first token and what follows it. No token is
refused here, since its value fits its kind. -/
theorem statementOver_eq (nested : NestedReader top Stmt) (p : Parser σ)
    (hp : p.size ≤ top.size) :
    statementOver nested p hp =
      (p.accept? StmtStart.ofLexeme?).map fun started =>
        started.andThen fun (first, position) q hq =>
          statementRest nested first position q (lt_of_lt_of_le hq hp) := by
  unfold statementOver
  rw [p.take?_eq_accept? StmtStart.isStart_kind StmtStart.ofParts?_of_ofLexeme?]

/-- Reads the statement that starts here, if one does. -/
def statement? (p : Parser σ) : Attempt σ p.size Stmt :=
  statementOver (fun q _ => statement? q) p p.le_refl
termination_by p.size

/-- Reads the body of a function that starts here, if one does. -/
def functionBody? (p : Parser σ) : Attempt σ p.size (List Stmt × Position) :=
  block? (fun q _ => q.statement?) p p.le_refl

end Parser

end ScalarScript
