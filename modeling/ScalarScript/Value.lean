import ScalarScript.Integer
import ScalarScript.Decimal.Notation
import ScalarScript.Stmt

/-!
# `ScalarScript.Value`: what programs compute with

A value is an integer, a double, a string, a truth value, or nothing.
`ValueType` names these five; the types that a program can declare are
four of them.
-/

set_option autoImplicit false

namespace ScalarScript

/-- The types of values. -/
inductive ValueType where
  | int
  | float
  | string
  | bool
  | nothing
  deriving DecidableEq, Repr

/-- How messages name a type. -/
def ValueType.text : ValueType → String
  | int => "int"
  | float => "float"
  | string => "string"
  | bool => "bool"
  | nothing => "nothing"

/-- The type of the values that a declared type admits. -/
def DeclaredType.valueType : DeclaredType → ValueType
  | int => .int
  | float => .float
  | string => .string
  | nothing => .nothing

/-- Values. -/
inductive Value where
  | int (n : Int64)
  | float (x : Float)
  | string (s : String)
  | bool (b : Bool)
  | nothing
  deriving BEq, Repr

namespace Value

/-- The type of a value. -/
def type : Value → ValueType
  | int _ => .int
  | float _ => .float
  | string _ => .string
  | bool _ => .bool
  | nothing => .nothing

/-- The value of a variable that is declared without one. -/
def zero : DeclaredType → Value
  | .int => int 0
  | .float => float 0.0
  | .string => string ""
  | .nothing => nothing

/-- The double nearest to a number. -/
def toFloat? : Value → Option Float
  | int n => some (Integer.toFloat n)
  | float x => some x
  | _ => none

/-- The truth value that a value is, if it is one. -/
def toBool? : Value → Option Bool
  | bool b => some b
  | _ => none

/-- Whether a value is an integer or a double. -/
def isNumber : Value → Bool
  | int _ | float _ => true
  | _ => false

/-- Whether a value is a string. -/
def isString : Value → Bool
  | string _ => true
  | _ => false

/-- The text of a value, as `print` shows it. -/
def text : Value → String
  | int n => Integer.text n
  | float x => (Double.ofFloat x).valueText
  | string s => s
  | bool true => "true"
  | bool false => "false"
  | nothing => "nothing"

/-- The value as a declared type holds it. Integers become doubles where
doubles are declared; nothing else is changed. -/
def store? : DeclaredType → Value → Option Value
  | .int, int n => some (int n)
  | .float, float x => some (float x)
  | .float, int n => some (float (Integer.toFloat n))
  | .string, string s => some (string s)
  | .nothing, nothing => some nothing
  | _, _ => none

end Value

end ScalarScript
