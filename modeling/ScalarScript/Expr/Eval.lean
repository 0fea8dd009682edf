import ScalarScript.Frame
import ScalarScript.Builtin

/-!
# `ScalarScript.Expr.Eval`: the value of an expression

An expression reads variables and calls functions; it changes no
variable of its own frame. Operands are evaluated from left to right. An
arithmetic chain combines them one by one, starting from 0 or 1, and a
logical chain stops at the first operand that decides it.

How a function is called is a parameter of evaluation, so that the
evaluation of one expression is a recursion on that expression alone.
-/

set_option autoImplicit false

namespace ScalarScript

/-- How a function is called by name: with its arguments, at a place. -/
abbrev Caller := String → List Value → Position → Run RuntimeError Value

/-- The error that an operand is of a wrong type. -/
def badOperand (operator : String) (v : Value) (operand : Expr) : RuntimeError :=
  .badOperandType operator (.one v.type) operand.description operand.position

/-- Where an arithmetic chain starts. -/
def ArithmeticOp.unit : ArithmeticOp → Int64
  | add => 0
  | multiply => 1

/-- The exact sum or product of two integers, if it is in range. -/
def ArithmeticOp.onIntegers? : ArithmeticOp → Int64 → Int64 → Option Int64
  | add => Integer.add?
  | multiply => Integer.mul?

/-- The rounded sum or product of two doubles. -/
def ArithmeticOp.onFloats : ArithmeticOp → Float → Float → Float
  | add, x, y => x + y
  | multiply, x, y => x * y

/-- Combines what a chain has come to with its next operand, of which the
value is given. Two integers give an integer, other numbers a double. -/
def ArithmeticOp.combine (op : ArithmeticOp) (total v : Value) (operand : Expr) :
    Except RuntimeError Value :=
  match total, v with
  | .int a, .int b =>
    match op.onIntegers? a b with
    | some c => .ok (.int c)
    | none => .error (.integerOverflow (.combine op a b) operand.position)
  | total, v =>
    match total.toFloat?, v.toFloat? with
    | some x, some y => .ok (.float (op.onFloats x y))
    | _, _ => .error (badOperand op.text v operand)

/-- Applies an operator to the value of its operand. -/
def UnaryOp.apply (op : UnaryOp) (v : Value) (operand : Expr) (position : Position) :
    Except RuntimeError Value :=
  match op, v with
  | .negate, .int n =>
    match Integer.neg? n with
    | some m => .ok (.int m)
    | none => .error (.integerOverflow (.negate n) position)
  | .negate, .float x => .ok (.float (-x))
  | .not, .bool b => .ok (.bool (!b))
  | .reciprocal, .int n =>
    if n = 0 then .error (.divisionByZero position)
    else .ok (.float (1.0 / Integer.toFloat n))
  | .reciprocal, .float x =>
    if x == 0.0 then .error (.divisionByZero position) else .ok (.float (1.0 / x))
  | op, v => .error (badOperand op.text v operand)

/-- Compares two values. Nothing is less or greater than what is not a
number. -/
def ComparisonOp.apply (op : ComparisonOp) (left right : Value) (position : Position) :
    Except RuntimeError Value :=
  match op with
  | .equal => .ok (.bool (left.equal right))
  | .notEqual => .ok (.bool (!left.equal right))
  | op =>
    match left.compare right with
    | .ordered o => .ok (.bool (op.holds o))
    | .unordered => .ok (.bool false)
    | .incomparable =>
      .error (.badOperandType op.text (.two left.type right.type) "comparison" position)

/-- The truth value at which a logical chain stops. -/
def LogicalOp.decisive : LogicalOp → Bool
  | and => false
  | or => true

mutual

/-- The value of an expression. -/
def Expr.eval (call : Caller) (vars : Bindings) : Expr → Run RuntimeError Value
  | .int n _ => pure (.int n)
  | .float x _ => pure (.float x)
  | .string s _ => pure (.string s)
  | .name s p =>
    match vars.get? s with
    | some v => pure v
    | none => Run.fail (.undefinedVariable s p)
  | .call f args p => do
    let vs ← evalAll call vars args
    call f vs p
  | .unary op e p => do
    let v ← Expr.eval call vars e
    Run.ofExcept (op.apply v e p)
  | .arithmetic op es _ => evalArithmetic call vars op (.int op.unit) es
  | .logical op es _ => evalLogical call vars op es
  | .comparison op left right p => do
    let v ← Expr.eval call vars left
    let w ← Expr.eval call vars right
    Run.ofExcept (op.apply v w p)

/-- The values of several expressions. -/
def evalAll (call : Caller) (vars : Bindings) : List Expr → Run RuntimeError (List Value)
  | [] => pure []
  | e :: es => do
    let v ← Expr.eval call vars e
    let vs ← evalAll call vars es
    pure (v :: vs)

/-- The value of an arithmetic chain that has come to a total. -/
def evalArithmetic (call : Caller) (vars : Bindings) (op : ArithmeticOp) (total : Value) :
    List Expr → Run RuntimeError Value
  | [] => pure total
  | e :: es => do
    let v ← Expr.eval call vars e
    let total ← Run.ofExcept (op.combine total v e)
    evalArithmetic call vars op total es

/-- The value of a logical chain that is not yet decided. -/
def evalLogical (call : Caller) (vars : Bindings) (op : LogicalOp) :
    List Expr → Run RuntimeError Value
  | [] => pure (.bool !op.decisive)
  | e :: es => do
    let v ← Expr.eval call vars e
    match v.toBool? with
    | none => Run.fail (badOperand op.text v e)
    | some b => if b = op.decisive then pure (.bool b) else evalLogical call vars op es

end

/-- The truth of a condition, which has to be a truth value. -/
def Expr.test (call : Caller) (vars : Bindings) (condition : Expr) : Run RuntimeError Bool := do
  let v ← condition.eval call vars
  match v.toBool? with
  | some b => pure b
  | none => Run.fail (.conditionNotBoolean v.type condition.position)

end ScalarScript
