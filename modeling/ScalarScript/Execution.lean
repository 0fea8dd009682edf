import ScalarScript.Failure
import ScalarScript.Program.Parser
import ScalarScript.Program.Run

/-!
# `ScalarScript.Execution`: from text to value

The whole way of a program: its text is split into tokens and read, and
the program is run at a terminal.
-/

set_option autoImplicit false

namespace ScalarScript

/-- A run whose errors are failures. -/
def Run.asFailure {α : Type} (r : Run RuntimeError α) : Run Failure α := fun t =>
  match r t with
  | .ok a t => .ok a t
  | .error e t => .error (.runtime e) t
  | .unfinished => .unfinished

/-- Runs a program within limits, each loop for at most `fuel` rounds. -/
def Program.run (p : Program) (limits : Limits) (fuel : Nat) : Run RuntimeError Value :=
  Scope.run ⟨p, limits.callDepth, fuel⟩

/-- Reads and runs a program text. -/
def executeText (text : String) (limits : Limits) (fuel : Nat) : Run Failure Value :=
  match Program.ofString text limits.stringLength with
  | .error e => Run.fail (.ofParseError e)
  | .ok p => (p.run limits fuel).asFailure

/-- Loads, reads and runs a program file. -/
def executeFile (path : String) (content : FileContent) (limits : Limits) (fuel : Nat) :
    Run Failure Value :=
  match content.text path with
  | .error e => Run.fail (.source e)
  | .ok text => executeText text limits fuel

end ScalarScript
