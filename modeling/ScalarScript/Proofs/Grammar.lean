import ScalarScript.Program

/-!
# `ScalarScript.Proofs.Grammar`: the language as derivations

The grammar of the language, as relations between a list of tokens and
the tree that a derivation of it gives. The relations know nothing of a
reader: they name no current token, no rest and no order of attempts.

    expression  → disjunction
    disjunction → conjunction ("or" conjunction)*
    conjunction → comparison ("and" comparison)*
    comparison  → sum [("==" | "!=" | "<" | "<=" | ">" | ">=") sum]
    sum         → product (("+" | "-") product)*
    product     → unary (("*" | "/") unary)*
    unary       → ["-" | "not"] primary
    primary     → "(" expression ")" | literal | name | call
    call        → name "(" [expression ("," expression)*] ")"

    block       → "{" statement* "}"
    statement   → if | while | declaration ";" | assignment ";" | return ";"
                | "break" ";" | "continue" ";" | call ";"
    if          → "if" "(" expression ")" instruction ["else" instruction]
    while       → "while" "(" expression ")" instruction
    instruction → block | statement

    function    → name "(" [parameter ("," parameter)*] ")" "returns" type block
    parameter   → name ":" variable type

The rules leave one choice open: which `if` an `else` belongs to. The
rule `Statement.ifElse` settles it. What stands between an `if` and its
own `else` must not end in an `if` that still waits for one
(`Stmt.endsOpen`), so an `else` always goes to the nearest open `if`.

What the rules cannot say is said of the tree: `Stmt.jumpsStay` asks for
a loop around each `break` and `continue`, and `FunctionDecl.WellFormed`
adds that the parameters of a function have different names.
-/

set_option autoImplicit false

namespace ScalarScript

namespace Grammar

/-- The token of a symbol at a place. -/
abbrev mark (s : Symbol) (p : Position) : Token := ⟨.symbol s, p⟩

/-- The token of a name at a place. -/
abbrev word (name : String) (p : Position) : Token := ⟨.identifier name, p⟩

/-! ### Expressions -/

/-- The levels whose phrases are chains of operands. -/
inductive Chain where
  | disjunction
  | conjunction
  | sum
  | product
  deriving DecidableEq, Repr

/-- The levels of precedence. -/
inductive Level where
  | chain (c : Chain)
  | comparison
  | unary
  | primary
  deriving DecidableEq, Repr

/-- The level of the operands of a chain. -/
def Chain.operand : Chain → Level
  | disjunction => .chain .conjunction
  | conjunction => .comparison
  | sum => .chain .product
  | product => .unary

/-- The node that two or more operands of a chain make. -/
def Chain.node : Chain → List Expr → Position → Expr
  | disjunction => .logical .or
  | conjunction => .logical .and
  | sum => .arithmetic .add
  | product => .arithmetic .multiply

/-- The level of whole expressions. -/
abbrev Level.top : Level := .chain .disjunction

/-- `Joins c s p e e'`: the symbol `s` at `p` joins the operand `e` to a
chain `c`, in which it stands as `e'`. What is subtracted is negated,
what is divided by is inverted, and the new node is at the symbol. -/
inductive Joins : Chain → Symbol → Position → Expr → Expr → Prop
  | or (p : Position) (e : Expr) : Joins .disjunction .orWord p e e
  | and (p : Position) (e : Expr) : Joins .conjunction .andWord p e e
  | plus (p : Position) (e : Expr) : Joins .sum .plus p e e
  | minus (p : Position) (e : Expr) : Joins .sum .minus p e (.unary .negate e p)
  | star (p : Position) (e : Expr) : Joins .product .star p e e
  | slash (p : Position) (e : Expr) : Joins .product .slash p e (.unary .reciprocal e p)

/-- The symbols that compare, and what they stand for. -/
inductive Compares : Symbol → ComparisonOp → Prop
  | equal : Compares .equal .equal
  | notEqual : Compares .notEqual .notEqual
  | less : Compares .less .less
  | lessEqual : Compares .lessEqual .lessEqual
  | greater : Compares .greater .greater
  | greaterEqual : Compares .greaterEqual .greaterEqual

/-- The symbols that stand in front of an operand, and what they stand for. -/
inductive Prefixes : Symbol → UnaryOp → Prop
  | minus : Prefixes .minus .negate
  | not : Prefixes .notWord .not

mutual

/-- `Derives level ts e`: the tokens `ts` are a phrase of the level, and
`e` is its tree. -/
inductive Derives : Level → List Token → Expr → Prop
  /-- A single operand stands for itself. -/
  | single {c : Chain} {ts : List Token} {e : Expr} :
      Derives c.operand ts e → Derives (.chain c) ts e
  /-- Two or more operands make one node, at the place of the first. -/
  | chain {c : Chain} {ts us : List Token} {first second : Expr} {others : List Expr} :
      Derives c.operand ts first → Links c us (second :: others) →
      Derives (.chain c) (ts ++ us) (c.node (first :: second :: others) first.position)
  /-- An operand that is compared with nothing stands for itself. -/
  | uncompared {ts : List Token} {e : Expr} :
      Derives (.chain .sum) ts e → Derives .comparison ts e
  /-- Two operands are compared; the place is the operator's. -/
  | compared {s : Symbol} {op : ComparisonOp} {p : Position} {ts us : List Token}
      {left right : Expr} :
      Compares s op → Derives (.chain .sum) ts left → Derives (.chain .sum) us right →
      Derives .comparison (ts ++ mark s p :: us) (.comparison op left right p)
  /-- An operand without an operator in front of it. -/
  | plain {ts : List Token} {e : Expr} : Derives .primary ts e → Derives .unary ts e
  /-- At most one operator stands in front of an operand. -/
  | prefixed {s : Symbol} {op : UnaryOp} {p : Position} {ts : List Token} {e : Expr} :
      Prefixes s op → Derives .primary ts e →
      Derives .unary (mark s p :: ts) (.unary op e p)
  | int (n : Int64) (p : Position) : Derives .primary [⟨.int n, p⟩] (.int n p)
  | float (x : Float) (p : Position) : Derives .primary [⟨.float x, p⟩] (.float x p)
  | string (s : String) (p : Position) : Derives .primary [⟨.string s, p⟩] (.string s p)
  | name (s : String) (p : Position) : Derives .primary [word s p] (.name s p)
  /-- A call is at the place of its name. -/
  | call {f : String} {p q r : Position} {ts : List Token} {args : List Expr} :
      Arguments ts args →
      Derives .primary (word f p :: mark .leftParen q :: (ts ++ [mark .rightParen r]))
        (.call f args p)
  /-- Parentheses leave no node. -/
  | parenthesis {p q : Position} {ts : List Token} {e : Expr} :
      Derives .top ts e →
      Derives .primary (mark .leftParen p :: (ts ++ [mark .rightParen q])) e

/-- The further operands of a chain, each behind a symbol that joins it. -/
inductive Links : Chain → List Token → List Expr → Prop
  | nil {c : Chain} : Links c [] []
  | cons {c : Chain} {s : Symbol} {p : Position} {ts us : List Token} {e e' : Expr}
      {es : List Expr} :
      Joins c s p e e' → Derives c.operand ts e → Links c us es →
      Links c (mark s p :: (ts ++ us)) (e' :: es)

/-- The arguments of a call, without the parentheses. -/
inductive Arguments : List Token → List Expr → Prop
  | none : Arguments [] []
  | some {ts us : List Token} {e : Expr} {es : List Expr} :
      Derives .top ts e → FurtherArguments us es → Arguments (ts ++ us) (e :: es)

/-- The arguments behind the first, each behind a comma. -/
inductive FurtherArguments : List Token → List Expr → Prop
  | nil : FurtherArguments [] []
  | cons {p : Position} {ts us : List Token} {e : Expr} {es : List Expr} :
      Derives .top ts e → FurtherArguments us es →
      FurtherArguments (mark .comma p :: (ts ++ us)) (e :: es)

end

/-- A primary alone is an expression. -/
theorem Derives.of_primary {ts : List Token} {e : Expr} (h : Derives .primary ts e) :
    Derives .top ts e :=
  .single <| .single <| .uncompared <| .single <| .single <| .plain h

end Grammar

/-! ### Statements -/

/-- Whether a statement ends in an `if` that has no `else`, so that an
`else` behind it would belong to that `if`. -/
def Stmt.endsOpen : Stmt → Bool
  | .ifStmt _ _ none _ => true
  | .ifStmt _ _ (some elseBody) _ => elseBody.endsOpen
  | .whileStmt _ body _ => body.endsOpen
  | _ => false

namespace Grammar

/-- The types of variables. -/
inductive VariableType : Symbol → DeclaredType → Prop
  | int : VariableType .intWord .int
  | float : VariableType .floatWord .float
  | string : VariableType .stringWord .string

/-- The types of results. -/
inductive ResultType : Symbol → DeclaredType → Prop
  | variable {s : Symbol} {type : DeclaredType} : VariableType s type → ResultType s type
  | nothing : ResultType .nothingWord .nothing

mutual

/-- `Statement ts s`: the tokens `ts` are a statement, and `s` is its
tree. Every statement is at the place of its first token. -/
inductive Statement : List Token → Stmt → Prop
  | ifThen {p q r : Position} {ts us : List Token} {c : Expr} {body : Stmt} :
      Derives .top ts c → Instruction us body →
      Statement (mark .ifWord p :: mark .leftParen q :: (ts ++ mark .rightParen r :: us))
        (.ifStmt c body none p)
  /-- No `if` in front of the `else` is nearer to it and still open. -/
  | ifElse {p q r w : Position} {ts us vs : List Token} {c : Expr} {thenBody elseBody : Stmt} :
      Derives .top ts c → Instruction us thenBody → thenBody.endsOpen = false →
      Instruction vs elseBody →
      Statement
        (mark .ifWord p :: mark .leftParen q ::
          (ts ++ mark .rightParen r :: (us ++ mark .elseWord w :: vs)))
        (.ifStmt c thenBody (some elseBody) p)
  | whileLoop {p q r : Position} {ts us : List Token} {c : Expr} {body : Stmt} :
      Derives .top ts c → Instruction us body →
      Statement (mark .whileWord p :: mark .leftParen q :: (ts ++ mark .rightParen r :: us))
        (.whileStmt c body p)
  | declare {p q r w z : Position} {name : String} {s : Symbol} {type : DeclaredType} :
      VariableType s type →
      Statement [mark .varWord p, word name q, mark .colon r, mark s w, mark .semicolon z]
        (.declare name type none p)
  | declareWith {p q r w a z : Position} {name : String} {s : Symbol} {type : DeclaredType}
      {ts : List Token} {e : Expr} :
      VariableType s type → Derives .top ts e →
      Statement
        (mark .varWord p :: word name q :: mark .colon r :: mark s w :: mark .assign a ::
          (ts ++ [mark .semicolon z]))
        (.declare name type (some e) p)
  | assign {p a z : Position} {name : String} {ts : List Token} {e : Expr} :
      Derives .top ts e →
      Statement (word name p :: mark .assign a :: (ts ++ [mark .semicolon z])) (.assign name e p)
  | leave {p z : Position} :
      Statement [mark .returnWord p, mark .semicolon z] (.returnStmt none p)
  | leaveWith {p z : Position} {ts : List Token} {e : Expr} :
      Derives .top ts e →
      Statement (mark .returnWord p :: (ts ++ [mark .semicolon z])) (.returnStmt (some e) p)
  | breakLoop {p z : Position} :
      Statement [mark .breakWord p, mark .semicolon z] (.breakStmt p)
  | continueLoop {p z : Position} :
      Statement [mark .continueWord p, mark .semicolon z] (.continueStmt p)
  | call {p q r z : Position} {f : String} {ts : List Token} {args : List Expr} :
      Arguments ts args →
      Statement
        (word f p :: mark .leftParen q :: (ts ++ [mark .rightParen r, mark .semicolon z]))
        (.call f args p)

/-- A block or a single statement. A block is at the place of its brace. -/
inductive Instruction : List Token → Stmt → Prop
  | statement {ts : List Token} {s : Stmt} : Statement ts s → Instruction ts s
  | block {p q : Position} {ts : List Token} {ss : List Stmt} :
      Statements ts ss →
      Instruction (mark .leftBrace p :: (ts ++ [mark .rightBrace q])) (.block ss p)

/-- Statements one after the other. -/
inductive Statements : List Token → List Stmt → Prop
  | nil : Statements [] []
  | cons {ts us : List Token} {s : Stmt} {ss : List Stmt} :
      Statement ts s → Statements us ss → Statements (ts ++ us) (s :: ss)

end

/-! ### Functions -/

/-- A parameter, at the place of its name. -/
inductive ParameterOf : List Token → Parameter → Prop
  | mk {name : String} {p q r : Position} {s : Symbol} {type : DeclaredType} :
      VariableType s type →
      ParameterOf [word name p, mark .colon q, mark s r] ⟨name, type, p⟩

/-- The parameters behind the first, each behind a comma. -/
inductive FurtherParameters : List Token → List Parameter → Prop
  | nil : FurtherParameters [] []
  | cons {p : Position} {ts us : List Token} {x : Parameter} {xs : List Parameter} :
      ParameterOf ts x → FurtherParameters us xs →
      FurtherParameters (mark .comma p :: (ts ++ us)) (x :: xs)

/-- The parameters of a function, without the parentheses. -/
inductive Parameters : List Token → List Parameter → Prop
  | none : Parameters [] []
  | some {ts us : List Token} {x : Parameter} {xs : List Parameter} :
      ParameterOf ts x → FurtherParameters us xs → Parameters (ts ++ us) (x :: xs)

/-- A function, at the place of its name. -/
inductive Function : List Token → FunctionDecl → Prop
  | mk {name : String} {p q r w x a z : Position} {s : Symbol} {result : DeclaredType}
      {ts us : List Token} {params : List Parameter} {body : List Stmt} :
      Parameters ts params → ResultType s result → Statements us body →
      Function
        (word name p :: mark .leftParen q ::
          (ts ++ mark .rightParen r :: mark .returnsWord w :: mark s x :: mark .leftBrace a ::
            (us ++ [mark .rightBrace z])))
        ⟨name, params, result, body, a, p⟩

/-- Functions one after the other. -/
inductive Functions : List Token → List FunctionDecl → Prop
  | nil : Functions [] []
  | cons {ts us : List Token} {f : FunctionDecl} {fs : List FunctionDecl} :
      Function ts f → Functions us fs → Functions (ts ++ us) (f :: fs)

end Grammar

/-! ### What is asked of the tree -/

mutual

/-- Whether every `break` and `continue` of a statement is in the body of
a `while`: of one inside the statement, or of one around it. -/
def Stmt.jumpsStay (around : Bool) : Stmt → Bool
  | .breakStmt _ | .continueStmt _ => around
  | .ifStmt _ thenBody elseBody _ =>
    thenBody.jumpsStay around && jumpsStayOptional around elseBody
  | .whileStmt _ body _ => body.jumpsStay true
  | .block body _ => jumpsStayAll around body
  | _ => true

/-- The same for a statement that may be left out. -/
def jumpsStayOptional (around : Bool) : Option Stmt → Bool
  | none => true
  | some s => s.jumpsStay around

/-- The same for every one of several statements. -/
def jumpsStayAll (around : Bool) : List Stmt → Bool
  | [] => true
  | s :: ss => s.jumpsStay around && jumpsStayAll around ss

end

/-- The parameters have different names, and no `break` or `continue`
leaves the body. -/
structure FunctionDecl.WellFormed (f : FunctionDecl) : Prop where
  parameters_nodup : (f.parameters.map Parameter.name).Nodup
  jumps_stay : jumpsStayAll false f.body = true

end ScalarScript
