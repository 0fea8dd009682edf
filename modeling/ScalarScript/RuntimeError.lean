import ScalarScript.Value
import ScalarScript.Terminal

/-!
# `ScalarScript.RuntimeError`: why a run fails

The causes for which a run ends without a value, most of them with a
place, and the one function that words them.
-/

set_option autoImplicit false

namespace ScalarScript

/-- What a name that is taken names. -/
inductive Named where
  | aVariable
  | aFunction
  deriving DecidableEq, Repr

/-- How messages name what a name names. -/
def Named.text : Named → String
  | aVariable => "variable"
  | aFunction => "function"

/-- Where a value has to be of a declared type. -/
inductive Destination where
  | declaration
  | assignment
  | result
  deriving DecidableEq, Repr

/-- How messages name a destination. -/
def Destination.text : Destination → String
  | declaration => "variable"
  | assignment => "assignment to"
  | result => "return value of"

/-- How many arguments a function takes. -/
inductive Arity where
  | exactly (n : Nat)
  | atLeast (n : Nat)
  deriving DecidableEq, Repr

/-- How messages state a number of arguments. -/
def Arity.text : Arity → String
  | exactly 1 => "1 argument"
  | exactly n => s!"{n} arguments"
  | atLeast n => s!"at least {n} arguments"

/-- The types that an operator cannot work on. -/
inductive OperandTypes where
  | one (type : ValueType)
  | two (left right : ValueType)
  deriving DecidableEq, Repr

/-- How messages state types of operands. -/
def OperandTypes.text : OperandTypes → String
  | one t => t.text
  | two s t => s.text ++ " and " ++ t.text

/-- An operation on integers whose result is out of range. -/
inductive Operation where
  | negate (n : Int64)
  | combine (op : ArithmeticOp) (left right : Int64)
  deriving DecidableEq, Repr

/-- How messages show an operation. -/
def Operation.text : Operation → String
  | negate n => "-" ++ Integer.text n
  | combine op a b => Integer.text a ++ " " ++ op.text ++ " " ++ Integer.text b

/-- Why a run fails. -/
inductive RuntimeError where
  | noMainFunction
  /-- A call that would make the frames more than the limit. -/
  | callDepthExceeded (function : String) (limit : Nat)
  | alreadyExists (what : Named) (name : String) (position : Position)
  | undefinedVariable (name : String) (position : Position)
  | undefinedFunction (name : String) (position : Position)
  | argumentCountMismatch (function : String) (expected : Arity) (got : Nat) (position : Position)
  | badOperandType (operator : String) (operands : OperandTypes) (node : String)
      (position : Position)
  | divisionByZero (position : Position)
  | castingError (target : DeclaredType) (value : Value) (position : Position)
  | typeMismatch (destination : Destination) (name : String) (expected got : ValueType)
      (position : Position)
  | conditionNotBoolean (got : ValueType) (position : Position)
  | integerOverflow (operation : Operation) (position : Position)
  | terminal (error : TerminalError) (position : Position)
  deriving BEq, Repr

namespace RuntimeError

/-- The place of the fault, if it has one. -/
def position? : RuntimeError → Option Position
  | noMainFunction | callDepthExceeded .. => none
  | alreadyExists _ _ p | undefinedVariable _ p | undefinedFunction _ p
  | argumentCountMismatch _ _ _ p | badOperandType _ _ _ p | divisionByZero p
  | castingError _ _ p | typeMismatch _ _ _ _ p | conditionNotBoolean _ p
  | integerOverflow _ p | terminal _ p => some p

/-- How messages show a value that cannot be converted: a string in
quotes, any other value by its text. -/
def shown : Value → String
  | .string s => "\"" ++ s ++ "\""
  | v => v.text

/-- The message of the error. -/
def message : RuntimeError → String
  | noMainFunction => "No main() function found"
  | callDepthExceeded function limit =>
    s!"Maximum call depth of {limit} exceeded when calling '" ++ function ++ "'"
  | alreadyExists what name p =>
    "The " ++ what.text ++ " '" ++ name ++ "' already exists at " ++ p.text
  | undefinedVariable name p => "Undefined variable '" ++ name ++ "' at " ++ p.text
  | undefinedFunction name p => "Undefined function '" ++ name ++ "' at " ++ p.text
  | argumentCountMismatch function expected got p =>
    "Function '" ++ function ++ "' expects " ++ expected.text ++ s!", got {got} at " ++ p.text
  | badOperandType operator operands node p =>
    "Bad operand type for '" ++ operator ++ "': " ++ operands.text ++ " in " ++ node ++ " at "
      ++ p.text
  | divisionByZero p => "Division by zero at " ++ p.text
  | castingError target value p =>
    "Cannot convert " ++ shown value ++ " to " ++ target.text ++ " at " ++ p.text
  | typeMismatch destination name expected got p =>
    "Type mismatch in " ++ destination.text ++ " '" ++ name ++ "' at " ++ p.text ++ ": expected "
      ++ expected.text ++ ", got " ++ got.text
  | conditionNotBoolean got p =>
    "Condition must be a comparison or logical expression, got " ++ got.text ++ " at " ++ p.text
  | integerOverflow operation p =>
    "Integer overflow in operation: " ++ operation.text ++ " at " ++ p.text
  | terminal error p => "Terminal I/O failed at " ++ p.text ++ ": " ++ error.text

end RuntimeError

end ScalarScript
