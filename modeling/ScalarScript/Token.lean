import ScalarScript.Position
import ScalarScript.Integer
import ScalarScript.Decimal.Notation

/-!
# `ScalarScript.Token`: the units of a program text

A program text is a sequence of tokens. A symbol has a fixed spelling;
a number, a string and an identifier carry what they stand for; a
character that starts no token is a token of its own, so that splitting
a text never fails because of it.

`Lexeme` says what a token is, `Kind` forgets the value it carries, and
`Lexeme.ofParts?` rebuilds a lexeme from a kind and a value that fit
each other.
-/

set_option autoImplicit false

namespace ScalarScript

/-- The words and marks with a fixed spelling. -/
inductive Symbol where
  | ifWord | elseWord | whileWord | returnWord | returnsWord | varWord | breakWord | continueWord
  | intWord | floatWord | stringWord | nothingWord
  | orWord | andWord | notWord
  | assign | equal | notEqual | less | lessEqual | greater | greaterEqual
  | plus | minus | star | slash
  | leftParen | rightParen | leftBrace | rightBrace | comma | colon | semicolon
  deriving DecidableEq, Repr

namespace Symbol

/-- The reserved words. -/
def words : List (List Char × Symbol) :=
  [(['i', 'f'], .ifWord),
   (['e', 'l', 's', 'e'], .elseWord),
   (['w', 'h', 'i', 'l', 'e'], .whileWord),
   (['r', 'e', 't', 'u', 'r', 'n'], .returnWord),
   (['r', 'e', 't', 'u', 'r', 'n', 's'], .returnsWord),
   (['v', 'a', 'r'], .varWord),
   (['b', 'r', 'e', 'a', 'k'], .breakWord),
   (['c', 'o', 'n', 't', 'i', 'n', 'u', 'e'], .continueWord),
   (['i', 'n', 't'], .intWord),
   (['f', 'l', 'o', 'a', 't'], .floatWord),
   (['s', 't', 'r', 'i', 'n', 'g'], .stringWord),
   (['n', 'o', 't', 'h', 'i', 'n', 'g'], .nothingWord),
   (['o', 'r'], .orWord),
   (['a', 'n', 'd'], .andWord),
   (['n', 'o', 't'], .notWord)]

/-- The marks, a longer one before its own beginning. The exclamation
mark is a second spelling of `not`. -/
def marks : List (List Char × Symbol) :=
  [(['=', '='], .equal),
   (['!', '='], .notEqual),
   (['<', '='], .lessEqual),
   (['>', '='], .greaterEqual),
   (['='], .assign),
   (['<'], .less),
   (['>'], .greater),
   (['!'], .notWord),
   (['+'], .plus),
   (['-'], .minus),
   (['*'], .star),
   (['/'], .slash),
   (['('], .leftParen),
   ([')'], .rightParen),
   (['\x7b'], .leftBrace),
   (['\x7d'], .rightBrace),
   ([','], .comma),
   ([':'], .colon),
   ([';'], .semicolon)]

/-- The reserved word that a word is, if it is one. -/
def ofWord? (word : List Char) : Option Symbol :=
  words.lookup word

/-- The longest mark that a text starts with, and its spelling. -/
def markAt? (text : List Char) : Option (List Char × Symbol) :=
  marks.find? fun m => m.1.isPrefixOf text

/-- How messages spell a symbol. -/
def text : Symbol → String
  | ifWord => "if" | elseWord => "else" | whileWord => "while" | returnWord => "return"
  | returnsWord => "returns" | varWord => "var" | breakWord => "break"
  | continueWord => "continue" | intWord => "int" | floatWord => "float"
  | stringWord => "string" | nothingWord => "nothing" | orWord => "or" | andWord => "and"
  | notWord => "not" | assign => "=" | equal => "==" | notEqual => "!=" | less => "<"
  | lessEqual => "<=" | greater => ">" | greaterEqual => ">=" | plus => "+" | minus => "-"
  | star => "*" | slash => "/" | leftParen => "(" | rightParen => ")" | leftBrace => "\x7b"
  | rightBrace => "\x7d" | comma => "," | colon => ":" | semicolon => ";"

end Symbol

/-- What a token is, apart from the value it carries. -/
inductive Kind where
  | symbol (s : Symbol)
  | number
  | string
  | identifier
  | unknown
  | endOfText
  deriving DecidableEq, Repr

/-- How messages name a kind of token. -/
def Kind.text : Kind → String
  | .symbol s => "'" ++ s.text ++ "'"
  | .number => "numeric literal"
  | .string => "string literal"
  | .identifier => "identifier"
  | .unknown => "unknown character"
  | .endOfText => "end of file"

/-- What a token can carry. -/
inductive TokenValue where
  | int (n : Int64)
  | float (x : Float)
  | text (s : String)
  | char (c : Char)
  deriving BEq, Repr

/-- The text that a token carries, if it carries one. -/
def TokenValue.text? : TokenValue → Option String
  | .text s => some s
  | _ => none

/-- How messages show what a token carries. -/
def TokenValue.display : TokenValue → String
  | .int n => Integer.text n
  | .float x => (Double.ofFloat x).shortestText
  | .text s => s
  | .char c => c.toString

/-- What a token is. -/
inductive Lexeme where
  | symbol (s : Symbol)
  | int (n : Int64)
  | float (x : Float)
  | string (s : String)
  | identifier (name : String)
  /-- A character that starts no token. -/
  | unknown (c : Char)
  | endOfText
  deriving BEq, Repr

namespace Lexeme

/-- The kind of a lexeme. -/
def kind : Lexeme → Kind
  | symbol s => .symbol s
  | int _ | float _ => .number
  | string _ => .string
  | identifier _ => .identifier
  | unknown _ => .unknown
  | endOfText => .endOfText

/-- What a lexeme carries. -/
def value : Lexeme → Option TokenValue
  | symbol _ | endOfText => none
  | int n => some (.int n)
  | float x => some (.float x)
  | string s | identifier s => some (.text s)
  | unknown c => some (.char c)

/-- The symbol that a lexeme is, if it is one. -/
def symbol? : Lexeme → Option Symbol
  | symbol s => some s
  | _ => none

/-- The name that a lexeme is, if it is an identifier. -/
def name? : Lexeme → Option String
  | identifier s => some s
  | _ => none

/-- The lexeme of a kind with a value, if the value fits the kind. -/
def ofParts? (kind : Kind) (value : Option TokenValue) : Option Lexeme :=
  match kind with
  | .symbol s => if value.isNone then some (symbol s) else none
  | .number =>
    match value with
    | some (.int n) => some (int n)
    | some (.float x) => some (float x)
    | _ => none
  | .string =>
    match value with
    | some (.text s) => some (string s)
    | _ => none
  | .identifier =>
    match value with
    | some (.text s) => some (identifier s)
    | _ => none
  | .unknown =>
    match value with
    | some (.char c) => some (unknown c)
    | _ => none
  | .endOfText => if value.isNone then some endOfText else none

/-- How messages show what was found. -/
def display : Lexeme → String
  | string s => "string literal \"" ++ s ++ "\""
  | identifier name => "identifier '" ++ name ++ "'"
  | unknown c => "unknown character '" ++ c.toString ++ "'"
  | l =>
    match l.value with
    | some v => l.kind.text ++ " " ++ v.display
    | none => l.kind.text

end Lexeme

/-- A lexeme and the place of its first character. -/
structure Token where
  lexeme : Lexeme
  position : Position
  deriving BEq, Repr

namespace Token

/-- The kind of a token. -/
def kind (t : Token) : Kind := t.lexeme.kind

/-- How messages show a token that was found. -/
def display (t : Token) : String := t.lexeme.display

/-- One for a token of the text, and zero for the end, which is a token
that is never used up. -/
def weight (t : Token) : Nat :=
  match t.lexeme with
  | .endOfText => 0
  | _ => 1

/-- A token counts at most once for what is left to read. -/
theorem weight_le_one (t : Token) : t.weight ≤ 1 := by
  unfold weight
  split <;> omega

end Token

end ScalarScript
