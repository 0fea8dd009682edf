import ScalarScript.Execution

/-!
# `ScalarScript.CommandLine`: running a program from the command line

The arguments are the path of a program and, in any order, the limits
of the run, each given at most once and as a 64-bit unsigned number in
the next argument or behind an equals sign. Two dashes alone end the
options.

What a program prints goes to standard output. The value it ends with,
or the failure, goes to standard error, and the exit status tells them
apart.
-/

set_option autoImplicit false

namespace ScalarScript.CommandLine

/-- What the arguments ask for. -/
structure Options where
  path : String
  limits : Limits
  deriving DecidableEq, Repr

/-- What has been found among the arguments. -/
structure Found where
  path : Option String
  callDepth : Option Nat
  stringLength : Option Nat
  deriving DecidableEq, Repr

/-- The options that take a number. -/
inductive Setting where
  | callDepth
  | stringLength
  deriving DecidableEq, Repr

/-- The option with a name. -/
def Setting.ofName? (name : String) : Option Setting :=
  if name = "--recursion-limit" ∨ name = "--recursionlimit" then some .callDepth
  else if name = "--max-string-length" then some .stringLength
  else none

/-- The unsigned 64-bit number that a text denotes. A plus sign may stand
in front. -/
def readUnsigned? (text : String) : Option Nat :=
  let digits := match text.toList with
    | '+' :: rest => rest
    | cs => cs
  (Integer.readNat? digits).bind fun n => if n ≤ Limits.greatest then some n else none

/-- Notes a path, of which there is only one and which is not empty. -/
def Found.addPath (f : Found) (path : String) : Option Found :=
  if f.path.isSome ∨ path = "" then none else some { f with path := some path }

/-- Notes the value of an option, which is given at most once. -/
def Found.set (f : Found) (setting : Setting) (text : String) : Option Found :=
  (readUnsigned? text).bind fun n =>
    match setting with
    | .callDepth => if f.callDepth.isSome then none else some { f with callDepth := some n }
    | .stringLength =>
      if f.stringLength.isSome then none else some { f with stringLength := some n }

/-- An argument cut at its first equals sign, if it has one. -/
def cutValue? (argument : String) : Option (String × String) :=
  match argument.toList.dropWhile (· ≠ '=') with
  | [] => none
  | _ :: value =>
    some (String.ofList (argument.toList.takeWhile (· ≠ '=')), String.ofList value)

/-- Goes through the arguments. -/
def scan (f : Found) : List String → Option Found
  | [] => some f
  | argument :: rest =>
    if argument = "--" then rest.foldlM Found.addPath f
    else if argument = "-" ∨ ¬ "-".isPrefixOf argument then
      (f.addPath argument).bind fun f => scan f rest
    else match cutValue? argument with
      | some (name, value) =>
        (Setting.ofName? name).bind fun setting =>
          (f.set setting value).bind fun f => scan f rest
      | none =>
        (Setting.ofName? argument).bind fun setting =>
          match rest with
          | [] => none
          | value :: rest => (f.set setting value).bind fun f => scan f rest

/-- What the arguments ask for, if they can be understood. -/
def Options.ofArguments? (arguments : List String) : Option Options :=
  (scan ⟨none, none, none⟩ arguments).bind fun f =>
    f.path.map fun path =>
      ⟨path, f.callDepth.getD Limits.standard.callDepth,
        f.stringLength.getD Limits.standard.stringLength⟩

/-- What the command leaves behind. -/
structure Report where
  status : Nat
  stdout : String
  stderr : String
  deriving DecidableEq, Repr

/-- The exit status of a value: an integer modulo 256, and 0 for any other
value. -/
def statusOf : Value → Nat
  | .int n => (n.toInt % 256).toNat
  | _ => 0

/-- The report on an outcome. A run without an outcome has none. -/
def report? : Outcome Failure Value → Option Report
  | .ok v t => some ⟨statusOf v, t.echo.getD "", "Program exited with value: " ++ v.text ++ "\n"⟩
  | .error e t => some ⟨1, t.echo.getD "", e.renderColored⟩
  | .unfinished => none

/-- Runs the command on what its path leads to and on standard input. -/
def run? (options : Options) (content : FileContent) (stdin : List UInt8) (fuel : Nat) :
    Option Report :=
  report? (executeFile options.path content options.limits fuel (.standard stdin))

/-- Whether a program file names the function that reads a line. Only then
can standard input matter to its run. -/
def namesRead (options : Options) (content : FileContent) : Bool :=
  match content.text options.path with
  | .error _ => false
  | .ok text =>
    match (Scanner.ofString text options.limits.stringLength).tokens with
    | .error _ => false
    | .ok tokens => tokens.any fun t => t.lexeme == .identifier Builtin.read.name

end ScalarScript.CommandLine
