import ScalarScript.Run
import ScalarScript.RuntimeError
import ScalarScript.Value.Order
import ScalarScript.Value.Conversion

/-!
# `ScalarScript.Builtin`: the functions that every program has

Printing and reading, the three conversions, and the largest and the
smallest of several numbers or strings.
-/

set_option autoImplicit false

namespace ScalarScript

/-- The functions that every program has. -/
inductive Builtin where
  | print
  | read
  | toInt
  | toFloat
  | toString
  | findMax
  | findMin
  deriving DecidableEq, Repr

namespace Builtin

/-- The name of a builtin function. -/
def name : Builtin → String
  | print => "print"
  | read => "read"
  | toInt => "to_int"
  | toFloat => "to_float"
  | toString => "to_string"
  | findMax => "find_max"
  | findMin => "find_min"

/-- All builtin functions. -/
def all : List Builtin :=
  [print, read, toInt, toFloat, toString, findMax, findMin]

/-- The builtin function with a name. -/
def ofName? (s : String) : Option Builtin :=
  all.find? fun b => b.name == s

/-- How many arguments a builtin function takes. -/
def arity : Builtin → Arity
  | print => .atLeast 0
  | read => .exactly 0
  | toInt | toFloat | toString => .exactly 1
  | findMax | findMin => .atLeast 1

/-- The value among `best` and the others that no later one is beyond, in
the wanted direction. It stays with the first of several that are
equal. -/
def furthest (wanted : Ordering) (best : Value) : List Value → Except OperandTypes Value
  | [] => .ok best
  | v :: rest =>
    match v.compare best with
    | .ordered o => furthest wanted (if o = wanted then v else best) rest
    | .unordered => furthest wanted best rest
    | .incomparable => .error (.two best.type v.type)

/-- The furthest of some values, which are all numbers or all strings. -/
def extreme (wanted : Ordering) (first : Value) (others : List Value) :
    Except OperandTypes Value :=
  if first.isNumber || first.isString then furthest wanted first others
  else .error (.one first.type)

/-- The result of a conversion, or the error that there is none. -/
def converted (target : DeclaredType) (v : Value) (position : Position) :
    Option Value → Run RuntimeError Value
  | some w => pure w
  | none => Run.fail (.castingError target v position)

/-- The result of looking for an extreme, or the error that there is
none. -/
def found (b : Builtin) (position : Position) :
    Except OperandTypes Value → Run RuntimeError Value
  | .ok v => pure v
  | .error types => Run.fail (.badOperandType b.name types "function call" position)

/-- Prints a line. -/
def printLine (text : String) : Run RuntimeError Value := fun t =>
  .ok .nothing (t.print text)

/-- Reads a line. -/
def readLine (position : Position) : Run RuntimeError Value := fun t =>
  match t.read with
  | (.ok line, t) => .ok (.string line) t
  | (.error e, t) => .error (.terminal e position) t

/-- Calls a builtin function. -/
def call (b : Builtin) (arguments : List Value) (position : Position) : Run RuntimeError Value :=
  match b, arguments with
  | print, vs => printLine (" ".intercalate (vs.map Value.text))
  | read, [] => readLine position
  | toInt, [v] => converted .int v position v.toIntegerValue?
  | toFloat, [v] => converted .float v position v.toFloatValue?
  | toString, [v] => converted .string v position v.toStringValue?
  | findMax, v :: vs => found findMax position (extreme .gt v vs)
  | findMin, v :: vs => found findMin position (extreme .lt v vs)
  | b, vs => Run.fail (.argumentCountMismatch b.name b.arity vs.length position)

end Builtin

end ScalarScript
