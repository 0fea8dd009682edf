import ScalarScript.Program.Run

/-!
# `ScalarScript.Interpreter`: running one program several times

An interpreter keeps a program, its call budget, a terminal and a table
of functions. A run fills the table and then executes the body of `main`,
and every call looks its function up in the table. The table and the
terminal stay with the interpreter when the run is over, whether it gave
a value or an error, and the next run finds them there.
-/

set_option autoImplicit false

namespace ScalarScript

/-- What the names in calls stand for. The entry nearest to the front
holds. -/
structure FunctionTable where
  entries : List (String × Callable)

namespace FunctionTable

/-- The table without entries. -/
def empty : FunctionTable := ⟨[]⟩

/-- Takes all entries out of a table. -/
def clear (_ : FunctionTable) : FunctionTable := .empty

/-- What a name stands for. -/
def find? (table : FunctionTable) (name : String) : Option Callable :=
  (table.entries.find? fun entry => entry.1 == name).map Prod.snd

/-- The table with an entry for a name. -/
def insert (table : FunctionTable) (name : String) (c : Callable) : FunctionTable :=
  ⟨(name, c) :: table.entries⟩

/-- The table with an entry for each builtin function. -/
def withBuiltins (table : FunctionTable) : FunctionTable :=
  Builtin.all.foldl (fun table b => table.insert b.name (.builtin b)) table

/-- Enters functions in their order. The first one whose name is taken is
refused, and those before it stay in the table. -/
def register (table : FunctionTable) : List FunctionDecl → Except RuntimeError Unit × FunctionTable
  | [] => (.ok (), table)
  | f :: fs =>
    if (table.find? f.name).isSome then
      (.error (.alreadyExists .aFunction f.name f.position), table)
    else (table.insert f.name (.declared f)).register fs

end FunctionTable

/-- The end of a run: its result and the terminal it leaves. -/
def Outcome.end? {ε α : Type} : Outcome ε α → Option (Except ε α × Terminal)
  | .ok a t => some (.ok a, t)
  | .error e t => some (.error e, t)
  | .unfinished => none

/-- An interpreter of a program. -/
structure Interpreter where
  program : Program
  /-- The greatest number of frames at one time. -/
  callDepth : Nat
  functions : FunctionTable
  terminal : Terminal

namespace Interpreter

/-- An interpreter that has not run yet. -/
def create (program : Program) (limits : Limits) (terminal : Terminal) : Interpreter :=
  ⟨program, limits.callDepth, .empty, terminal⟩

/-- Fills the table anew, with the builtin functions and then with those of
the program. -/
def register (i : Interpreter) : Except RuntimeError Unit × Interpreter :=
  let (result, functions) := i.functions.clear.withBuiltins.register i.program.intoFunctions
  (result, { i with functions })

/-- Runs the program, each loop for at most `fuel` rounds. There is no end
of a run that needs more. -/
def run (i : Interpreter) (fuel : Nat) : Option (Except RuntimeError Value × Interpreter) :=
  match i.register with
  | (.error e, i) => some (.error e, i)
  | (.ok (), i) =>
    match i.functions.find? "main" with
    | some (.declared main) =>
      (runMain i.functions.find? i.callDepth fuel main i.terminal).end?.map fun ended =>
        (ended.1, { i with terminal := ended.2 })
    | _ => some (.error .noMainFunction, i)

end Interpreter

end ScalarScript
