import ScalarScript.Token

/-!
# `ScalarScript.Token.Error`: what is wrong with a token

The causes for which a text cannot be split, each with its place, and
the one function that words them.
-/

set_option autoImplicit false

namespace ScalarScript

/-- What is wrong with a number. -/
inductive NumberFault where
  | leadingZeros (digits : String)
  | outOfRange (digits : String)
  /-- No digit follows the point, but this character or the end. -/
  | noFraction (found : Option Char)
  /-- The digits behind the point denote no double. -/
  | invalidFraction (digits : String)
  /-- A further point follows the fraction. -/
  | trailing (found : Char)
  deriving DecidableEq, Repr

/-- How messages describe a malformed number. -/
def NumberFault.text : NumberFault → String
  | .leadingZeros digits => "leading zeros in '" ++ digits ++ "'"
  | .outOfRange digits => "'" ++ digits ++ "' is out of range"
  | .noFraction (some c) => "expected a digit after '.', found '" ++ c.toString ++ "'"
  | .noFraction none => "expected a digit after '.', found end of file"
  | .invalidFraction digits => "invalid fraction '" ++ digits ++ "'"
  | .trailing c => "unexpected '" ++ c.toString ++ "' after number"

/-- Why no token can be given. -/
inductive TokenError where
  /-- The text ends inside the string that opens here. -/
  | unterminatedString (position : Position)
  /-- This character would make a string longer than the limit. -/
  | stringTooLong (limit : Nat) (position : Position)
  | malformedNumber (fault : NumberFault) (position : Position)
  /-- A kind and a value that do not fit each other. -/
  | inconsistentToken (kind : Kind) (value : Option TokenValue) (position : Position)
  deriving BEq, Repr

namespace TokenError

/-- The place of the fault. -/
def position : TokenError → Position
  | unterminatedString p | stringTooLong _ p | malformedNumber _ p | inconsistentToken _ _ p => p

/-- The fault without its place. -/
def cause : TokenError → String
  | unterminatedString _ => "the string is not terminated"
  | stringTooLong limit _ => s!"string literal exceeds {limit} characters"
  | malformedNumber fault _ => "invalid numeric literal: " ++ fault.text
  | inconsistentToken kind value _ =>
    let shown := match value with
      | some v => v.display
      | none => ""
    "value '" ++ shown ++ "' does not fit token kind " ++ kind.text

/-- The message of the error. -/
def message (e : TokenError) : String :=
  "Lexer error at " ++ e.position.text ++ ": " ++ e.cause

end TokenError

/-- The lexeme of a kind and a value, for a token at a place. A value that
does not fit the kind is refused. -/
def Lexeme.ofParts (kind : Kind) (value : Option TokenValue) (position : Position) :
    Except TokenError Lexeme :=
  match Lexeme.ofParts? kind value with
  | some lexeme => .ok lexeme
  | none => .error (.inconsistentToken kind value position)

/-- The token of a kind, a value and a place. A value that does not fit
the kind is refused. This is for callers that make tokens of their own;
the scanner makes a lexeme first and places it at the end. -/
def Token.ofParts (kind : Kind) (value : Option TokenValue) (position : Position) :
    Except TokenError Token :=
  (Lexeme.ofParts kind value position).map fun lexeme => ⟨lexeme, position⟩

end ScalarScript
