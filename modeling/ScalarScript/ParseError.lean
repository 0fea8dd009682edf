import ScalarScript.Token.Error

/-!
# `ScalarScript.ParseError`: why a text is no program

The causes for which tokens do not form a program, each with its place.
An error of the tokens themselves is passed on as it is.
-/

set_option autoImplicit false

namespace ScalarScript

/-- What a body or a condition belongs to. -/
inductive Construct where
  | function (name : String)
  | ifBranch
  | elseBranch
  | whileLoop
  deriving DecidableEq, Repr

/-- How messages name a construct. -/
def Construct.text : Construct → String
  | function name => "function " ++ name
  | ifBranch => "if"
  | elseBranch => "else"
  | whileLoop => "while"

/-- Why tokens do not form a program. -/
inductive ParseError where
  /-- The next token could not be read. -/
  | token (error : TokenError)
  /-- One of these kinds has to stand here. -/
  | unexpectedToken (expected : List Kind) (found : Lexeme) (position : Position)
  | missingBody (construct : Construct) (position : Position)
  | missingCondition (construct : Construct) (position : Position)
  | missingExpression (found : Lexeme) (position : Position)
  | missingOperand (operator : Symbol) (found : Lexeme) (position : Position)
  | duplicateFunction (name : String) (position : Position)
  | duplicateParameter (function parameter : String) (position : Position)
  /-- A `break` or a `continue` that no loop of its function encloses. -/
  | controlOutsideLoop (keyword : Symbol) (position : Position)
  deriving BEq, Repr

namespace ParseError

/-- The place of the fault. -/
def position : ParseError → Position
  | token e => e.position
  | unexpectedToken _ _ p | missingBody _ p | missingCondition _ p | missingExpression _ p
  | missingOperand _ _ p | duplicateFunction _ p | duplicateParameter _ _ p
  | controlOutsideLoop _ p => p

/-- The fault without its place. -/
def cause : ParseError → String
  | token e => e.cause
  | unexpectedToken expected found _ =>
    "expected " ++ " or ".intercalate (expected.map Kind.text) ++ ", found " ++ found.display
  | missingBody construct _ => "there is no body for " ++ construct.text
  | missingCondition construct _ => "missing condition in " ++ construct.text ++ " statement"
  | missingExpression found _ => "expected an expression, found " ++ found.display
  | missingOperand operator found _ =>
    "expected an operand after '" ++ operator.text ++ "', found " ++ found.display
  | duplicateFunction name _ => "function '" ++ name ++ "' is already defined"
  | duplicateParameter function parameter _ =>
    "parameter '" ++ parameter ++ "' of function '" ++ function ++ "' is declared twice"
  | controlOutsideLoop keyword _ => "'" ++ keyword.text ++ "' outside of a loop"

/-- The message of the error. -/
def message : ParseError → String
  | token e => e.message
  | e => "Parse error at " ++ e.position.text ++ ": " ++ e.cause

end ParseError

end ScalarScript
