import ScalarScript.Text.Utf8

/-!
# `ScalarScript.Terminal`: what a program prints and reads

A terminal keeps every text that was printed. It may also pass them on
to standard output, each as a line. What it reads comes from a list of
lines given beforehand, or from the bytes of standard input, which are
cut into lines when they are asked for.

Standard output is assumed to take every line: `print` has no failure. A
closed pipe or a full disk is outside of what is described here.
-/

set_option autoImplicit false

namespace ScalarScript

/-- Where a terminal reads from. -/
inductive Input where
  /-- Lines that are given as they are. -/
  | lines (queue : List String)
  /-- Bytes, of which each read takes one line. -/
  | bytes (stream : List UInt8)
  deriving DecidableEq, Repr

/-- Why a terminal cannot read. -/
inductive TerminalError where
  /-- The next line is not text. -/
  | notText
  deriving DecidableEq, Repr

/-- How messages describe an error of the terminal. -/
def TerminalError.text : TerminalError → String
  | notText => "stream did not contain valid UTF-8"

/-- A terminal. -/
structure Terminal where
  /-- The texts that were printed, in order. -/
  printed : Array String
  input : Input
  /-- What was passed on to standard output, if anything is. -/
  echo : Option String
  deriving DecidableEq, Repr

namespace Terminal

/-- A terminal that only keeps what is printed and reads given lines. -/
def scripted (queue : List String) : Terminal :=
  ⟨#[], .lines queue, none⟩

/-- A terminal that passes on what is printed and reads bytes. -/
def standard (stream : List UInt8) : Terminal :=
  ⟨#[], .bytes stream, some ""⟩

/-- Prints a text as a line. Standard output takes it whole. -/
def print (t : Terminal) (text : String) : Terminal :=
  { t with
    printed := t.printed.push text
    echo := t.echo.map fun sent => sent ++ text ++ "\n" }

/-- The byte that ends a line. -/
def lineFeed : UInt8 := 10

/-- Cuts bytes behind their first line feed. -/
def cutLine (stream : List UInt8) : List UInt8 × List UInt8 :=
  let line := stream.takeWhile (· ≠ lineFeed)
  match stream.dropWhile (· ≠ lineFeed) with
  | [] => (line, [])
  | feed :: rest => (line ++ [feed], rest)

/-- A line without the line feeds and carriage returns at its end. -/
def chomp (line : String) : String :=
  String.ofList (line.toList.reverse.dropWhile fun c => c = '\n' || c = '\r').reverse

/-- Reads a line. At the end of the input the line is empty. -/
def read (t : Terminal) : Except TerminalError String × Terminal :=
  match t.input with
  | .lines [] => (.ok "", t)
  | .lines (line :: queue) => (.ok line, { t with input := .lines queue })
  | .bytes stream =>
    let (line, rest) := cutLine stream
    let t := { t with input := .bytes rest }
    match Text.Utf8.decode line with
    | .ok text => (.ok (chomp text), t)
    | .error _ => (.error .notText, t)

/-- The lines of a text, which line feeds separate. -/
def splitLines (text : String) : List String :=
  (text.toList.splitOnP (· = '\n')).map String.ofList

/-- What was printed, by lines. -/
def output (t : Terminal) : List String :=
  t.printed.toList.flatMap splitLines

end Terminal

end ScalarScript
