import ScalarScript.Position

/-!
# `ScalarScript.Expr`: expressions

Expressions as the program text groups them. A chain of `+` and `-`, or
of `*` and `/`, is one sum or product of all its operands, with a
subtracted operand negated and a divisor inverted; a chain of `and`, or
of `or`, is one node too. Every node has the place that messages about
it name.
-/

set_option autoImplicit false

namespace ScalarScript

/-- Operators on one operand. -/
inductive UnaryOp where
  /-- The opposite; also of the right side of a subtraction. -/
  | negate
  | not
  /-- The inverse of the right side of a division. -/
  | reciprocal
  deriving DecidableEq, Repr

/-- How messages spell a unary operator. -/
def UnaryOp.text : UnaryOp → String
  | negate => "-"
  | not => "not"
  | reciprocal => "/"

/-- Operators of arithmetic chains. -/
inductive ArithmeticOp where
  | add
  | multiply
  deriving DecidableEq, Repr

/-- How messages spell an operator of an arithmetic chain. -/
def ArithmeticOp.text : ArithmeticOp → String
  | add => "+"
  | multiply => "*"

/-- Operators of logical chains. -/
inductive LogicalOp where
  | and
  | or
  deriving DecidableEq, Repr

/-- How messages spell an operator of a logical chain. -/
def LogicalOp.text : LogicalOp → String
  | and => "and"
  | or => "or"

/-- Operators that compare two values. -/
inductive ComparisonOp where
  | equal
  | notEqual
  | less
  | lessEqual
  | greater
  | greaterEqual
  deriving DecidableEq, Repr

/-- How messages spell a comparison. -/
def ComparisonOp.text : ComparisonOp → String
  | equal => "=="
  | notEqual => "!="
  | less => "<"
  | lessEqual => "<="
  | greater => ">"
  | greaterEqual => ">="

/-- Expressions. -/
inductive Expr where
  | int (n : Int64) (position : Position)
  | float (x : Float) (position : Position)
  | string (s : String) (position : Position)
  | name (s : String) (position : Position)
  | call (function : String) (arguments : List Expr) (position : Position)
  | unary (op : UnaryOp) (operand : Expr) (position : Position)
  | arithmetic (op : ArithmeticOp) (operands : List Expr) (position : Position)
  | logical (op : LogicalOp) (operands : List Expr) (position : Position)
  | comparison (op : ComparisonOp) (left right : Expr) (position : Position)
  deriving Repr

namespace Expr

/-- The place of an expression: of its operator if it has one of its own,
of its first operand if it is a chain. -/
def position : Expr → Position
  | int _ p | float _ p | string _ p | name _ p | call _ _ p | unary _ _ p | arithmetic _ _ p
  | logical _ _ p | comparison _ _ _ p => p

/-- How messages about operands describe an expression. -/
def description : Expr → String
  | int .. | float .. => "numeric literal"
  | string .. => "string literal"
  | name .. => "identifier"
  | call .. => "function call"
  | unary .negate .. => "negation"
  | unary .not .. => "logical not"
  | unary .reciprocal .. => "division"
  | arithmetic .add .. => "additive expression"
  | arithmetic .multiply .. => "multiplicative expression"
  | logical .and .. => "and expression"
  | logical .or .. => "or expression"
  | comparison .. => "comparison"

end Expr

end ScalarScript
