import ScalarScript.Limits
import ScalarScript.Program
import ScalarScript.Stmt.Exec

/-!
# `ScalarScript.Program.Run`: running a program

A run executes the body of `main`. A call evaluates its arguments first
and then looks up the name, compares the number of arguments, and takes
one frame from the call budget. Calls are a recursion on that budget:
the body of a function is executed with one frame less to spend than the
caller has.
-/

set_option autoImplicit false

namespace ScalarScript

/-- What a name in a call stands for. -/
inductive Callable where
  | builtin (b : Builtin)
  | declared (f : FunctionDecl)

namespace Program

/-- What a name stands for in a program. -/
def resolve? (p : Program) (name : String) : Option Callable :=
  match Builtin.ofName? name with
  | some b => some (.builtin b)
  | none => (p.function? name).map .declared

/-- The first function whose name a builtin function has. -/
def clash? (p : Program) : Option FunctionDecl :=
  p.functions.find? fun f => (Builtin.ofName? f.name).isSome

end Program

/-- The frame in which a function's body starts. Arguments are bound as
they are given. -/
def FunctionDecl.frame (f : FunctionDecl) (arguments : List Value) (remaining : Nat) : Frame :=
  (f.parameters.zip arguments).foldl (fun frame (param, v) => frame.set param.name v)
    (.enter f.name remaining)

/-- The value that a signal gives the caller. A body that is run through
gives nothing. -/
def Signal.result : Signal → Value
  | .returning v => v
  | _ => .nothing

/-- Calls a function from a frame with the given budget. What a name
stands for is found with `find?`. -/
def callThrough (find? : String → Option Callable) (callDepth fuel remaining : Nat) (name : String)
    (arguments : List Value) (position : Position) : Run RuntimeError Value :=
  match find? name with
  | none => Run.fail (.undefinedFunction name position)
  | some (.builtin b) => b.call arguments position
  | some (.declared f) =>
    if arguments.length ≠ f.parameters.length then
      Run.fail (.argumentCountMismatch f.name (.exactly f.parameters.length) arguments.length
        position)
    else match remaining with
      | 0 | 1 => Run.fail (.callDepthExceeded f.name callDepth)
      | budget + 2 => do
        let (_, signal) ← execAll (callThrough find? callDepth fuel (budget + 1)) fuel f.body
          (f.frame arguments (budget + 1))
        Run.ofExcept (signal.result.stored f.result .result f.name position)

/-- The value that a program ends with: what `main` returns, or 0 if that
is nothing. -/
def exitValue (signal : Signal) : Value :=
  match signal.result with
  | .nothing => .int 0
  | v => v

/-- Runs the body of `main` in the first frame. -/
def runMain (find? : String → Option Callable) (callDepth fuel : Nat) (main : FunctionDecl) :
    Run RuntimeError Value := do
  let (_, signal) ← execAll (callThrough find? callDepth fuel callDepth) fuel main.body
    (.enter "main" callDepth)
  pure (exitValue signal)

/-- What runs in a program share. -/
structure Scope where
  program : Program
  /-- The greatest number of frames at one time. -/
  callDepth : Nat
  /-- The rounds that each loop is given. -/
  fuel : Nat

namespace Scope

/-- Calls a function of the program from a frame with the given budget. -/
def call (s : Scope) (remaining : Nat) (name : String) (arguments : List Value)
    (position : Position) : Run RuntimeError Value :=
  callThrough s.program.resolve? s.callDepth s.fuel remaining name arguments position

/-- Runs the program. -/
def run (s : Scope) : Run RuntimeError Value :=
  match s.program.clash? with
  | some f => Run.fail (.alreadyExists .aFunction f.name f.position)
  | none =>
    match s.program.function? "main" with
    | none => Run.fail .noMainFunction
    | some f => runMain s.program.resolve? s.callDepth s.fuel f

end Scope

end ScalarScript
