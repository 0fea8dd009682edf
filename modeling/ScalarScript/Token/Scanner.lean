import ScalarScript.Cursor
import ScalarScript.Text.Alphabetic
import ScalarScript.Text.Numeric
import ScalarScript.Text.Blank
import ScalarScript.Decimal.Reading
import ScalarScript.Token.Error

/-!
# `ScalarScript.Token.Scanner`: tokens from text

A scanner gives the tokens of a text one by one. Blanks in front of a
token are skipped; then the first character decides what the token is,
and the token is as long as it can be. Every call returns the scanner
that goes on, also after an error, and at the end of the text it keeps
giving the end.

`length_lexemeAt_lt` is the fact that ends every loop over a scanner:
each call that is not at the end uses up a character.
-/

set_option autoImplicit false

namespace ScalarScript

/-- A text that is being split into tokens, and the number of characters
a string of it may have. -/
structure Scanner where
  cursor : Cursor
  limit : Nat
  deriving DecidableEq, Repr

namespace Scanner

/-- The characters of a word behind its first one. -/
def isWordChar (c : Char) : Bool :=
  Text.isAlphabetic c || Text.isNumeric c || c = '_'

/-- The two characters that open and close a string. -/
def isQuote (c : Char) : Bool :=
  c = '\'' || c = '"'

/-- The control characters that a letter behind a backslash stands for. -/
def escape? : Char → Option Char
  | 'n' => some '\n'
  | 'r' => some '\r'
  | 't' => some '\t'
  | 'b' => some '\x08'
  | 'f' => some '\x0c'
  | '\\' => some '\\'
  | '0' => some '\x00'
  | _ => none

/-- What a backslash and a character stand for in a string that `quote`
closes: the quote, a control character, or the two themselves. -/
def unescape (quote c : Char) : List Char :=
  if c = quote then [quote]
  else match escape? c with
    | some d => [d]
    | none => ['\\', c]

/-- Puts characters in front of a string that was read. -/
def prepend (cs : List Char) :
    Except TokenError (List Char) × Cursor → Except TokenError (List Char) × Cursor
  | (.ok ds, rest) => (.ok (cs ++ ds), rest)
  | (.error e, rest) => (.error e, rest)

/-- Reads the rest of a string that was opened at `opening`, up to and
with the closing quote. There is room for so many more characters; the
room is looked at before a character or an escape is read. -/
def stringBody (opening : Position) (limit : Nat) (quote : Char) :
    (room : Nat) → List Char → Position → Except TokenError (List Char) × Cursor
  | _, [], p => (.error (.unterminatedString opening), ⟨[], p⟩)
  | room, c :: rest, p =>
    if c = quote then (.ok [], ⟨rest, p.next c⟩)
    else if room = 0 then (.error (.stringTooLong limit p), ⟨c :: rest, p⟩)
    else if c = '\\' then
      match rest with
      | [] => (.error (.unterminatedString opening), ⟨[], p.next c⟩)
      | e :: rest =>
        prepend (unescape quote e)
          (stringBody opening limit quote (room - (unescape quote e).length) rest
            ((p.next c).next e))
    else prepend [c] (stringBody opening limit quote (room - 1) rest (p.next c))

/-- Reads a string whose opening quote is next. -/
def stringAt (limit : Nat) (quote : Char) (c : Cursor) : Except TokenError Lexeme × Cursor :=
  let opened := c.drop 1
  let (body, rest) := stringBody c.position limit quote limit opened.rest opened.position
  (body.bind fun cs => Lexeme.ofParts .string (some (.text (String.ofList cs))) c.position, rest)

/-- Gives the number that starts at `start` and has this value, unless a
digit or a point follows it. -/
def closeNumber (start : Position) (value : TokenValue) (rest : Cursor) :
    Except TokenError Lexeme × Cursor :=
  match rest.rest with
  | [] => (Lexeme.ofParts .number (some value) start, rest)
  | c :: _ =>
    if c.isDigit || c = '.' then (.error (.malformedNumber (.trailing c) rest.position), rest)
    else (Lexeme.ofParts .number (some value) start, rest)

/-- Reads the fraction behind the point of a number that starts at
`start`. -/
def fractionAt (start : Position) (integer : Int64) (c : Cursor) :
    Except TokenError Lexeme × Cursor :=
  let fraction := c.run Char.isDigit
  let rest := c.skip Char.isDigit
  if fraction = [] then
    (.error (.malformedNumber (.noFraction rest.rest.head?) rest.position), rest)
  else match Decimal.read? fraction with
    | none =>
      (.error (.malformedNumber (.invalidFraction (String.ofList fraction)) start), rest)
    | some x => closeNumber start (.float (Decimal.withFraction integer x fraction.length)) rest

/-- Reads a number whose first digit is next. -/
def numberAt (c : Cursor) : Except TokenError Lexeme × Cursor :=
  let digits := c.run Char.isDigit
  let rest := c.skip Char.isDigit
  if digits.take 2 = ['0', '0'] then
    (.error (.malformedNumber (.leadingZeros (String.ofList digits)) c.position), rest)
  else match Integer.ofInt? (Integer.ofDigits digits) with
    | none => (.error (.malformedNumber (.outOfRange (String.ofList digits)) c.position), rest)
    | some n =>
      if rest.rest.head? = some '.' then fractionAt c.position n (rest.drop 1)
      else closeNumber c.position (.int n) rest

/-- Reads a word whose first letter is next. -/
def wordAt (c : Cursor) : Except TokenError Lexeme × Cursor :=
  let word := c.run isWordChar
  let lexeme := match Symbol.ofWord? word with
    | some s => Lexeme.ofParts (.symbol s) none c.position
    | none => Lexeme.ofParts .identifier (some (.text (String.ofList word))) c.position
  (lexeme, c.skip isWordChar)

/-- Reads the lexeme that starts at a cursor, which is not at a blank. -/
def lexemeAt (limit : Nat) (c : Cursor) : Except TokenError Lexeme × Cursor :=
  match c.rest with
  | [] => (Lexeme.ofParts .endOfText none c.position, c)
  | first :: _ =>
    match Symbol.markAt? c.rest with
    | some (spelling, s) => (Lexeme.ofParts (.symbol s) none c.position, c.drop spelling.length)
    | none =>
      if isQuote first then stringAt limit first c
      else if first.isDigit then numberAt c
      else if Text.isAlphabetic first then wordAt c
      else (Lexeme.ofParts .unknown (some (.char first)) c.position, c.drop 1)

/-- A scanner at the start of a text. -/
def ofString (text : String) (limit : Nat) : Scanner :=
  ⟨.ofString text, limit⟩

/-- The next token, and the scanner behind it. -/
def next (s : Scanner) : Except TokenError Token × Scanner :=
  let c := s.cursor.skip Text.isBlank
  let (lexeme, rest) := lexemeAt s.limit c
  (lexeme.map fun l => ⟨l, c.position⟩, { s with cursor := rest })

/-- The number of characters still to be read. -/
def size (s : Scanner) : Nat :=
  s.cursor.rest.length

/-- Characters in front of a string leave the cursor where it is. -/
theorem rest_prepend (cs : List Char) (r : Except TokenError (List Char) × Cursor) :
    (prepend cs r).2 = r.2 := by
  rcases r with ⟨_ | _, _⟩ <;> rfl

/-- Reading the body of a string makes what is left no longer. -/
theorem length_stringBody_le (opening : Position) (limit : Nat) (quote : Char) (room : Nat)
    (cs : List Char) (p : Position) :
    (stringBody opening limit quote room cs p).2.rest.length ≤ cs.length := by
  fun_induction stringBody opening limit quote room cs p <;>
    simp_all [rest_prepend] <;> omega

/-- Closing a number leaves the cursor where it is. -/
theorem rest_closeNumber (start : Position) (value : TokenValue) (rest : Cursor) :
    (closeNumber start value rest).2 = rest := by
  unfold closeNumber
  split
  · rfl
  · split <;> rfl

/-- The digits of a fraction denote a double, so a fraction is refused only
where there is none. -/
theorem fractionAt_eq (start : Position) (integer : Int64) (c : Cursor) :
    fractionAt start integer c =
      let rest := c.skip Char.isDigit
      if c.run Char.isDigit = [] then
        (.error (.malformedNumber (.noFraction rest.rest.head?) rest.position), rest)
      else closeNumber start (.float (Decimal.literal integer (c.run Char.isDigit))) rest := by
  have hall : ∀ d ∈ c.run Char.isDigit, d.isDigit = true :=
    List.all_eq_true.mp List.all_takeWhile
  unfold fractionAt
  dsimp only
  split
  · rfl
  · rename_i hne
    rw [Decimal.read?_of_digits hne hall]
    rfl

/-- Reading a fraction makes what is left no longer. -/
theorem length_fractionAt_le (start : Position) (integer : Int64) (c : Cursor) :
    (fractionAt start integer c).2.rest.length ≤ c.rest.length := by
  rw [fractionAt_eq]
  have := c.length_skip_le Char.isDigit
  dsimp only
  split
  · exact this
  · rw [rest_closeNumber]; exact this

/-- A run that the next character belongs to is not empty. -/
theorem length_skip_lt {c : Cursor} {p : Char → Bool} {first : Char} {rest : List Char}
    (h : c.rest = first :: rest) (hp : p first = true) :
    (c.skip p).rest.length < c.rest.length := by
  have := (List.dropWhile_suffix (l := rest) p).length_le
  simp only [Cursor.skip, h, List.dropWhile_cons, hp, if_true, List.length_cons]
  omega

/-- Reading a number takes at least its first digit. -/
theorem length_numberAt_lt {c : Cursor} {first : Char} {rest : List Char}
    (h : c.rest = first :: rest) (hd : first.isDigit = true) :
    (numberAt c).2.rest.length < c.rest.length := by
  have hs := length_skip_lt h hd
  unfold numberAt
  dsimp only
  split
  · exact hs
  · split
    · exact hs
    · split
      · refine Nat.lt_of_le_of_lt (length_fractionAt_le _ _ _) ?_
        simp only [Cursor.length_drop]
        omega
      · rw [rest_closeNumber]; exact hs

/-- No mark is spelled by nothing. -/
theorem length_spelling_pos {text : List Char} {m : List Char × Symbol}
    (h : Symbol.markAt? text = some m) : 0 < m.1.length := by
  have hm := List.mem_of_find?_eq_some h
  have : ∀ m ∈ Symbol.marks, 0 < m.1.length := by decide
  exact this m hm

/-- Reading a lexeme uses up at least one character, whether it succeeds
or not, unless the text is at its end. -/
theorem length_lexemeAt_lt (limit : Nat) {c : Cursor} (h : c.rest ≠ []) :
    (lexemeAt limit c).2.rest.length < c.rest.length := by
  obtain ⟨first, rest, hc⟩ := List.exists_cons_of_ne_nil h
  have hlen : c.rest.length = rest.length + 1 := by rw [hc]; rfl
  unfold lexemeAt
  split
  · contradiction
  · rename_i first' rest' hc'
    obtain ⟨rfl, rfl⟩ := List.cons.inj (hc.symm.trans hc')
    split
    · rename_i m s hm
      have := length_spelling_pos hm
      simp only [Cursor.length_drop]
      dsimp only at this
      omega
    · split
      · unfold stringAt
        have hb := length_stringBody_le c.position limit first limit (c.drop 1).rest
          (c.drop 1).position
        simp only [Cursor.length_drop] at hb
        dsimp only
        omega
      · split
        · exact length_numberAt_lt hc ‹_›
        · split
          · refine length_skip_lt hc ?_
            simp [isWordChar, *]
          · simp only [Cursor.length_drop]
            omega

/-- At the end of the text the scanner stays there. -/
theorem lexemeAt_of_nil (limit : Nat) {c : Cursor} (h : c.rest = []) :
    lexemeAt limit c = (.ok .endOfText, c) := by
  unfold lexemeAt
  split
  · rfl
  · simp_all

/-- A token that is not the end uses up a character. -/
theorem size_next_add_weight_le {s s' : Scanner} {t : Token} (h : s.next = (.ok t, s')) :
    s'.size + t.weight ≤ s.size := by
  have hskip := s.cursor.length_skip_le Text.isBlank
  simp only [next, Prod.mk.injEq] at h
  obtain ⟨ht, rfl⟩ := h
  dsimp only [size]
  by_cases hr : (s.cursor.skip Text.isBlank).rest = []
  · rw [lexemeAt_of_nil _ hr] at ht ⊢
    obtain rfl : _ = t := by simpa [Except.map] using ht
    simpa [Token.weight] using hskip
  · have hlt := length_lexemeAt_lt s.limit hr
    have := t.weight_le_one
    omega

/-- All tokens of a text, the end as the last of them, or the first
error. -/
def tokens (s : Scanner) : Except TokenError (List Token) :=
  match _step : s.next with
  | (.error e, _) => .error e
  | (.ok t, s') =>
    if t.weight = 0 then .ok [t] else (tokens s').map (t :: ·)
termination_by s.size
decreasing_by
  have := size_next_add_weight_le _step
  omega

end Scanner

end ScalarScript
