import ScalarScript.Expr
import ScalarScript.Parser

/-!
# `ScalarScript.Expr.Parser`: reading expressions

Expressions are read by levels of precedence, from `or`, which binds
least, down to literals, names, calls and parentheses:

    or         := and ("or" and)*
    and        := comparison ("and" comparison)*
    comparison := sum (("==" | "!=" | "<" | "<=" | ">" | ">=") sum)?
    sum        := product (("+" | "-") product)*
    product    := unary (("*" | "/") unary)*
    unary      := ("-" | "not")? primary
    primary    := number | string | name | name "(" arguments ")" | "(" or ")"

Each level is a function of the level below it. Only the expressions
inside parentheses and argument lists lead back to the top, and they
stand at parsers that are nearer to the end.
-/

set_option autoImplicit false

namespace ScalarScript

/-- The comparison that a symbol stands for. -/
def ComparisonOp.ofSymbol? : Symbol → Option ComparisonOp
  | .equal => some .equal
  | .notEqual => some .notEqual
  | .less => some .less
  | .lessEqual => some .lessEqual
  | .greater => some .greater
  | .greaterEqual => some .greaterEqual
  | _ => none

/-- The operator that a symbol in front of an operand stands for. -/
def UnaryOp.ofSymbol? : Symbol → Option UnaryOp
  | .minus => some .negate
  | .notWord => some .not
  | _ => none

/-- A symbol together with its meaning. -/
def withSymbol {α : Type} (meaning : Symbol → Option α) (s : Symbol) : Option (Symbol × α) :=
  (meaning s).map fun a => (s, a)

/-- How a symbol joins a further operand to a chain: the operator, if
any, that the operand behind it is put under. -/
abbrev Link := Option UnaryOp

namespace Link

/-- The operand as it stands in the chain. -/
def apply (link : Link) (position : Position) (operand : Expr) : Expr :=
  match link with
  | some op => .unary op operand position
  | none => operand

/-- The link of chains of `or`. -/
def disjunction? : Symbol → Option Link
  | .orWord => some none
  | _ => none

/-- The link of chains of `and`. -/
def conjunction? : Symbol → Option Link
  | .andWord => some none
  | _ => none

/-- The links of sums. What is subtracted is negated. -/
def sum? : Symbol → Option Link
  | .plus => some none
  | .minus => some (some .negate)
  | _ => none

/-- The links of products. What is divided by is inverted. -/
def product? : Symbol → Option Link
  | .star => some none
  | .slash => some (some .reciprocal)
  | _ => none

end Link

/-- How a primary expression starts. -/
inductive PrimaryStart where
  | int (n : Int64)
  | float (x : Float)
  | string (s : String)
  | name (s : String)
  | parenthesis

namespace PrimaryStart

/-- Whether a token of this kind starts a primary expression. -/
def isStart : Kind → Bool
  | .number | .string | .identifier | .symbol .leftParen => true
  | _ => false

/-- The primary expression that a token of a kind and with a value
starts. -/
def ofParts? (kind : Kind) (value : Option TokenValue) : Option PrimaryStart :=
  match kind with
  | .number =>
    match value with
    | some (.int n) => some (.int n)
    | some (.float x) => some (.float x)
    | _ => none
  | .string => (value.bind TokenValue.text?).map .string
  | .identifier => (value.bind TokenValue.text?).map .name
  | .symbol .leftParen => some .parenthesis
  | _ => none

/-- The primary expression that a lexeme starts. -/
def ofLexeme? : Lexeme → Option PrimaryStart
  | .int n => some (.int n)
  | .float x => some (.float x)
  | .string s => some (.string s)
  | .identifier s => some (.name s)
  | .symbol .leftParen => some .parenthesis
  | _ => none

/-- A kind of token starts a primary expression exactly if its lexeme
does. -/
theorem isStart_kind (l : Lexeme) : isStart l.kind = (ofLexeme? l).isSome := by
  cases l with
  | symbol s => cases s <;> rfl
  | _ => rfl

/-- The kind and the value of a lexeme start the same primary expression
as the lexeme itself. -/
theorem ofParts?_of_ofLexeme? (l : Lexeme) (first : PrimaryStart)
    (h : ofLexeme? l = some first) : ofParts? l.kind l.value = some first := by
  cases l with
  | symbol s => cases s <;> exact h
  | unknown c | endOfText => cases h
  | _ => exact h

end PrimaryStart

namespace Parser

variable {σ : Type} [TokenSource σ] {top : Parser σ}

/-- The error that an operator has no operand here. -/
def missingOperand (p : Parser σ) (operator : Symbol) : ParseError :=
  .missingOperand operator p.current.lexeme p.current.position

/-- The error that an expression has to stand here. -/
def missingExpression (p : Parser σ) : ParseError :=
  .missingExpression p.current.lexeme p.current.position

/-- Reads the operand of an operator, which has to stand here. -/
def expectOperand (operand : Reader top Expr) (operator : Symbol) (p : Parser σ)
    (hp : p.size ≤ top.size) : Parsed σ p.size Expr :=
  (operand p hp).orError fun q => q.missingOperand operator

/-- Reads the links and operands of a chain behind its first operand. -/
def chainRest (link? : Symbol → Option Link) (operand : Reader top Expr) (p : Parser σ)
    (hp : p.size ≤ top.size) : Parsed σ (p.size + 1) (List Expr) :=
  match p.acceptSymbol? (withSymbol link?) with
  | .absent q hq => .done [] q hq
  | .found linked => .loose <| linked.andThen fun ((symbol, link), position) q hq =>
    have hq' := lt_of_lt_of_le hq hp
    .loose <| (expectOperand operand symbol q (le_of_lt hq')).andThen fun e r hr =>
      have hrp := lt_trans hr hq
      have hr' := lt_of_lt_of_le hrp hp
      (chainRest link? operand r (le_of_lt hr')).map fun es => link.apply position e :: es
termination_by p.size
decreasing_by exact hrp

/-- Reads a chain of operands. A single operand stands for itself; more
make one node at the place of the first. -/
def chain (node : List Expr → Position → Expr) (link? : Symbol → Option Link)
    (operand : Reader top Expr) : Reader top Expr := fun p hp =>
  (operand p hp).map fun read => read.andThen fun first q hq =>
    have hq' := lt_of_lt_of_le hq hp
    (chainRest link? operand q (le_of_lt hq')).map fun others =>
      match others with
      | [] => first
      | _ :: _ => node (first :: others) first.position

/-- Reads one operand, or two that are compared. -/
def comparison (operand : Reader top Expr) : Reader top Expr := fun p hp =>
  (operand p hp).map fun read => read.andThen fun left q hq =>
    match q.acceptSymbol? (withSymbol ComparisonOp.ofSymbol?) with
    | .absent r hr => .done left r hr
    | .found compared => .loose <| compared.andThen fun ((symbol, op), position) r hr =>
      have hrp := lt_trans hr hq
      have hr' := lt_of_lt_of_le hrp hp
      .loose <| (expectOperand operand symbol r (le_of_lt hr')).map fun right =>
        .comparison op left right position

/-- Reads an operand with at most one operator in front of it. -/
def unary (operand : Reader top Expr) : Reader top Expr := fun p hp =>
  match p.acceptSymbol? (withSymbol UnaryOp.ofSymbol?) with
  | .absent q hq => (operand q (le_trans hq hp)).within hq
  | .found applied => .found <| applied.andThen fun ((symbol, op), position) q hq =>
    have hq' := lt_of_lt_of_le hq hp
    .loose <| (expectOperand operand symbol q (le_of_lt hq')).map fun e => .unary op e position

/-- Reads further arguments, each behind a comma. -/
def argumentsRest (nested : NestedReader top Expr) (p : Parser σ) (hp : p.size < top.size) :
    Parsed σ (p.size + 1) (List Expr) :=
  match p.acceptSymbol? (only .comma) with
  | .absent q hq => .done [] q hq
  | .found comma => .loose <| comma.andThen fun _ q hq =>
    have hq' := lt_trans hq hp
    match nested q hq' with
    | .absent r _ => .error r.missingExpression r
    | .found read => .loose <| read.andThen fun e r hr =>
      have hrp := lt_trans hr hq
      have hr' := lt_trans hrp hp
      (argumentsRest nested r hr').map fun es => e :: es
termination_by p.size
decreasing_by exact hrp

/-- Reads the arguments of a call and the parentheses around them. -/
def arguments (nested : NestedReader top Expr) (p : Parser σ) (hp : p.size ≤ top.size) :
    Parsed σ p.size (List Expr) :=
  (p.expect .leftParen).andThen fun _ q hq =>
    have hq' := lt_of_lt_of_le hq hp
    match nested q hq' with
    | .absent r hr => ((r.expect .rightParen).map fun _ => []).within (le_succ_of_le hr)
    | .found read => .loose <| read.andThen fun e r hr =>
      have hr' := lt_trans hr hq'
      (argumentsRest nested r hr').andThen fun es s _ =>
        .loose <| (s.expect .rightParen).map fun _ => e :: es

/-- Reads what follows the first token of a primary expression. -/
def primaryRest (nested : NestedReader top Expr) (first : PrimaryStart) (position : Position)
    (p : Parser σ) (hp : p.size < top.size) : Parsed σ (p.size + 1) Expr :=
  match first with
  | .int i => .done (.int i position) p p.le_refl
  | .float x => .done (.float x position) p p.le_refl
  | .string s => .done (.string s position) p p.le_refl
  | .name s =>
    if p.isAt .leftParen then
      .loose <| (arguments nested p (le_of_lt hp)).map fun args => .call s args position
    else .done (.name s position) p p.le_refl
  | .parenthesis =>
    match nested p hp with
    | .absent q _ => .error q.missingExpression q
    | .found read => .loose <| read.andThen fun e r _ =>
      .loose <| (r.expect .rightParen).map fun _ => e

/-- Reads a literal, a name, a call, or an expression in parentheses. -/
def primary (nested : NestedReader top Expr) : Reader top Expr := fun p hp =>
  (p.take? PrimaryStart.isStart PrimaryStart.ofParts?).map fun started =>
    started.andThen fun (first, position) q hq =>
      primaryRest nested first position q (lt_of_lt_of_le hq hp)

/-- A primary expression is its first token and what follows it. No token
is refused here, since its value fits its kind. -/
theorem primary_eq (nested : NestedReader top Expr) (p : Parser σ) (hp : p.size ≤ top.size) :
    primary nested p hp =
      (p.accept? PrimaryStart.ofLexeme?).map fun started =>
        started.andThen fun (first, position) q hq =>
          primaryRest nested first position q (lt_of_lt_of_le hq hp) := by
  unfold primary
  rw [p.take?_eq_accept? PrimaryStart.isStart_kind PrimaryStart.ofParts?_of_ofLexeme?]

/-- All levels, over the reader of nested expressions. -/
def ladder (nested : NestedReader top Expr) : Reader top Expr :=
  chain (.logical .or) Link.disjunction? <|
  chain (.logical .and) Link.conjunction? <|
  comparison <|
  chain (.arithmetic .add) Link.sum? <|
  chain (.arithmetic .multiply) Link.product? <|
  unary <|
  primary nested

/-- Reads the expression that starts here, if one does. -/
def expression? (p : Parser σ) : Attempt σ p.size Expr :=
  ladder (fun q _ => expression? q) p p.le_refl
termination_by p.size

/-- Reads an expression, which has to stand here. -/
def expectExpression (p : Parser σ) : Parsed σ p.size Expr :=
  p.expression?.orError missingExpression

/-- Reads the arguments of a call. -/
def callArguments (p : Parser σ) : Parsed σ p.size (List Expr) :=
  arguments (fun q _ => q.expression?) p p.le_refl

end Parser

end ScalarScript
