import ScalarScript.CommandLine

/-!
# `ScalarScript.Main`: the command

Reads the program file, standard input if the program names the
function that reads it, and writes the report. All else is
`ScalarScript.CommandLine`.
-/

set_option autoImplicit false

namespace ScalarScript.CommandLine

/-- What a path leads to in the file system. -/
def contentAt (path : String) : IO FileContent := do
  try
    let data ← IO.FS.readBinFile path
    return .bytes data.toList
  catch
    | .noFileOrDirectory .. => return .missing
    | .inappropriateType .. => return .directory
    | e => return .unreadable (toString e)

/-- The rounds that each loop is given: more than any run can take. -/
def loopRounds : Nat := 4611686018427387904

/-- How the command is used. -/
def usage : String :=
  "usage: PATH [--recursion-limit N] [--max-string-length N]"

end ScalarScript.CommandLine

open ScalarScript CommandLine

/-- Runs the program file that the arguments name. -/
def main (arguments : List String) : IO UInt32 := do
  match Options.ofArguments? arguments with
  | none =>
    IO.eprintln usage
    return 2
  | some options =>
    let content ← contentAt options.path
    let stdin ←
      if namesRead options content then (← IO.getStdin).readBinToEnd
      else pure ByteArray.empty
    match run? options content stdin.toList loopRounds with
    | none => return 1
    | some report =>
      IO.print report.stdout
      (← IO.getStdout).flush
      IO.eprint report.stderr
      return report.status.toUInt32
