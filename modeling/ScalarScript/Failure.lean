import ScalarScript.SourceFile
import ScalarScript.ParseError
import ScalarScript.RuntimeError

/-!
# `ScalarScript.Failure`: everything that can go wrong

A failure belongs to the stage that met it: loading the text, splitting
it into tokens, reading the program, or running it. `render` and
`renderColored` show a failure to a person, under a banner.
-/

set_option autoImplicit false

namespace ScalarScript

/-- Why there is no result. -/
inductive Failure where
  | source (error : SourceError)
  | token (error : TokenError)
  | parse (error : ParseError)
  | runtime (error : RuntimeError)

namespace Failure

/-- The failure that an error of reading is. An error of the tokens is a
failure of its own. -/
def ofParseError : ParseError → Failure
  | .token e => token e
  | e => parse e

/-- The stage that failed. -/
def stage : Failure → String
  | source _ => "Source error"
  | token _ => "Lexer error"
  | parse _ => "Parser error"
  | runtime _ => "Runtime error"

/-- What happened. -/
def message : Failure → String
  | source e => e.message
  | token e => e.message
  | parse e => e.message
  | runtime e => e.message

/-- Where it happened, if that is a place in the text. -/
def position? : Failure → Option Position
  | source _ => none
  | token e => some e.position
  | parse e => some e.position
  | runtime e => e.position?

/-- The line that states a failure. Messages about the text start with
their stage already. -/
def headline : Failure → String
  | token e => e.message
  | parse e => e.message
  | f => f.stage ++ ": " ++ f.message

/-- The title of the banner. -/
def bannerTitle : String := " Encountered error "

/-- The width of the banner. -/
def bannerWidth : Nat := 80

/-- The banner: its title in the middle of a line. -/
def banner : String :=
  let fill := bannerWidth - bannerTitle.length
  let left := fill / 2
  String.ofList (List.replicate left '=' ++ bannerTitle.toList ++ List.replicate (fill - left) '=')

/-- A failure as plain text. This is for callers that show it elsewhere
than on a terminal; the command line uses `renderColored`. -/
def render (f : Failure) : String :=
  banner ++ "\n" ++ f.headline

/-- A failure as text for a terminal: the banner red and bold, the
headline red. -/
def renderColored (f : Failure) : String :=
  "\n\x1b[38;5;9m\x1b[1m" ++ banner ++ "\x1b[0m\n\x1b[38;5;9m" ++ f.headline ++ "\x1b[39m\n"

end Failure

end ScalarScript
