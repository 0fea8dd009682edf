import Mathlib.Algebra.Group.Nat.Defs
import ScalarScript.Token.Scanner

/-!
# `ScalarScript.Proofs.Token.Spelling`: how tokens are spelled

What it means for characters of a text to spell a lexeme, and for a text
to be split into tokens, without a scanner:

* `Decodes` relates the inside of a string to the characters that it
  stands for.
* `Spells l spelling next` relates a lexeme to its characters. `next` is
  the character behind them, and the relation holds only if the spelling
  cannot go on there: behind a word stands no further character of a
  word, behind a number no digit and no point, and behind a mark no
  character that would make a longer mark.
* `Splits before text ts` says that a text, which stands behind the
  characters `before`, is blanks and spellings in turn, and that `ts` are
  the tokens of these spellings, each at the place of its first
  character, with the end of the text as the last one.

`Position.behind` counts a place from the characters in front of it.
-/

set_option autoImplicit false

namespace ScalarScript

/-- The place of the character behind `before`: one line more than the
line feeds before it, one column more than the characters since the last
of these, and one more than all the characters. -/
def Position.behind (before : List Char) : Position where
  line := 1 + before.count '\n'
  column := 1 + (before.reverse.takeWhile (· ≠ '\n')).length
  offset := 1 + before.length

namespace Spelling

/-- All ways to write a symbol. -/
def ofSymbol : Symbol → List (List Char)
  | .notWord => [Symbol.notWord.text.toList, ['!']]
  | s => [s.text.toList]

/-- The value of decimal digits, the power of ten of each one counted
from the digits behind it. -/
def decimal : List Char → Nat
  | [] => 0
  | d :: ds => (d.toNat - '0'.toNat) * 10 ^ ds.length + decimal ds

/-- The letters behind a backslash that stand for a character of their
own. -/
def escapes : List (Char × Char) :=
  [('n', '\n'), ('r', '\r'), ('t', '\t'), ('b', '\x08'), ('f', '\x0c'), ('\\', '\\'),
   ('0', '\x00')]

/-- `Decodes quote body cs`: between two quotes, `body` stands for the
characters `cs`. -/
inductive Decodes (quote : Char) : List Char → List Char → Prop
  | nil : Decodes quote [] []
  | plain {c : Char} {body cs : List Char} :
      c ≠ quote → c ≠ '\\' → Decodes quote body cs → Decodes quote (c :: body) (c :: cs)
  /-- An escaped quote does not end the string. -/
  | quote {body cs : List Char} :
      Decodes quote body cs → Decodes quote ('\\' :: quote :: body) (quote :: cs)
  | control {c d : Char} {body cs : List Char} :
      c ≠ quote → (c, d) ∈ escapes → Decodes quote body cs →
      Decodes quote ('\\' :: c :: body) (d :: cs)
  /-- A backslash in front of any other character stands for itself. -/
  | other {c : Char} {body cs : List Char} :
      c ≠ quote → (∀ d, (c, d) ∉ escapes) → Decodes quote body cs →
      Decodes quote ('\\' :: c :: body) ('\\' :: c :: cs)

/-- Digits that may stand in front of a point or alone: one or more, and
not two zeros at the start. -/
structure Digits (digits : List Char) : Prop where
  nonempty : digits ≠ []
  all : ∀ d ∈ digits, d.isDigit = true
  no_zeros : ¬ ['0', '0'] <+: digits

/-- `Spells l spelling next`: the characters `spelling` are the lexeme
`l`, and the character `next` behind them, if there is one, does not
carry them on. -/
inductive Spells : Lexeme → List Char → Option Char → Prop
  | mark {s : Symbol} {spelling : List Char} {next : Option Char} :
      spelling ∈ ofSymbol s → (∀ c ∈ spelling, Scanner.isWordChar c = false) →
      (∀ c ∈ next, ∀ s', spelling ++ [c] ∉ ofSymbol s') →
      Spells (.symbol s) spelling next
  | keyword {s : Symbol} {spelling : List Char} {next : Option Char} :
      spelling ∈ ofSymbol s → (∀ c ∈ spelling, Scanner.isWordChar c = true) →
      (∀ c ∈ next, Scanner.isWordChar c = false) →
      Spells (.symbol s) spelling next
  | identifier {first : Char} {others : List Char} {next : Option Char} :
      Text.isAlphabetic first = true → (∀ c ∈ others, Scanner.isWordChar c = true) →
      (∀ s, first :: others ∉ ofSymbol s) → (∀ c ∈ next, Scanner.isWordChar c = false) →
      Spells (.identifier (String.ofList (first :: others))) (first :: others) next
  | int {n : Int64} {digits : List Char} {next : Option Char} :
      Digits digits → n.toInt = decimal digits → (∀ c ∈ next, c.isDigit = false ∧ c ≠ '.') →
      Spells (.int n) digits next
  | float {n : Int64} {digits fraction : List Char} {next : Option Char} :
      Digits digits → n.toInt = decimal digits →
      fraction ≠ [] → (∀ d ∈ fraction, d.isDigit = true) →
      (∀ c ∈ next, c.isDigit = false ∧ c ≠ '.') →
      Spells (.float (Decimal.literal n fraction)) (digits ++ '.' :: fraction) next
  | string {quote : Char} {body cs : List Char} {next : Option Char} :
      quote = '\'' ∨ quote = '"' → Decodes quote body cs →
      Spells (.string (String.ofList cs)) (quote :: (body ++ [quote])) next
  /-- A character that starts nothing else is a token of its own. -/
  | unknown {c : Char} {next : Option Char} :
      Text.isBlank c = false → Text.isAlphabetic c = false → c.isDigit = false →
      c ≠ '\'' → c ≠ '"' → (∀ s, ∀ spelling ∈ ofSymbol s, spelling.head? ≠ some c) →
      Spells (.unknown c) [c] next

/-- `Splits before text ts`: behind the characters `before`, the text is
blanks and the spellings of the tokens `ts` in turn, up to blanks and the
end. -/
inductive Splits : List Char → List Char → List Token → Prop
  | last {before gap : List Char} :
      (∀ c ∈ gap, Text.isBlank c = true) →
      Splits before gap [⟨.endOfText, .behind (before ++ gap)⟩]
  | token {before gap spelling rest : List Char} {l : Lexeme} {ts : List Token} :
      (∀ c ∈ gap, Text.isBlank c = true) → Spells l spelling rest.head? →
      Splits (before ++ gap ++ spelling) rest ts →
      Splits before (gap ++ spelling ++ rest) (⟨l, .behind (before ++ gap)⟩ :: ts)

end Spelling

/-! ### Counting places -/

/-- Going through a text character by character counts the same places. -/
theorem Position.start_after (before : List Char) : start.after before = behind before := by
  -- The column depends on the end of the text, so the induction is from there.
  rw [← List.reverse_reverse before]
  induction before.reverse with
  | nil => rfl
  | cons c cs ih =>
    rw [List.reverse_cons, after_append, ih, after_cons, after_nil]
    by_cases hc : c = '\n'
    · simp [next, behind, hc, Nat.add_comm]
    · have hcount : (cs.reverse ++ [c]).count '\n' = cs.reverse.count '\n' := by
        simp [List.count_append, hc]
      simp [next, behind, hc, hcount, Nat.add_assoc]

namespace Spelling

/-! ### Spellings and the tokens of a text -/

/-- No spelling is empty. -/
theorem Spells.ne_nil {l : Lexeme} {spelling : List Char} {next : Option Char}
    (h : Spells l spelling next) : spelling ≠ [] := by
  have hsymbol : ∀ s, [] ∉ ofSymbol s := by
    intro s
    cases s <;> decide
  cases h with
  | mark hs _ _ => rintro rfl; exact hsymbol _ hs
  | keyword hs _ _ => rintro rfl; exact hsymbol _ hs
  | identifier => simp
  | int hdigits _ _ => exact hdigits.nonempty
  | float => simp
  | string => simp
  | unknown => simp

/-- The end of the text has no spelling. -/
theorem Spells.lexeme_ne_endOfText {l : Lexeme} {spelling : List Char} {next : Option Char}
    (h : Spells l spelling next) : l ≠ .endOfText := by
  cases h <;> simp

/-- A token of a text stands behind what is in front of the text. -/
theorem Splits.length_lt_offset {before text : List Char} {ts : List Token}
    (h : Splits before text ts) : ∀ t ∈ ts, before.length < t.position.offset := by
  induction h with
  | last _ =>
    intro t ht
    rw [List.mem_singleton.mp ht]
    simp only [Position.behind, List.length_append]
    omega
  | token _ _ _ ih =>
    intro t ht
    rcases List.mem_cons.mp ht with rfl | ht
    · simp only [Position.behind, List.length_append]
      omega
    · have := ih t ht
      simp only [List.length_append] at this
      omega

/-- The offsets of the tokens strictly increase. -/
theorem Splits.offsets_increase {before text : List Char} {ts : List Token}
    (h : Splits before text ts) :
    ts.Pairwise fun t u => t.position.offset < u.position.offset := by
  induction h with
  | last _ => exact List.pairwise_singleton _ _
  | token _ hspells hsplits ih =>
    refine List.pairwise_cons.mpr ⟨?_, ih⟩
    intro u hu
    have hlt := hsplits.length_lt_offset u hu
    have hpos := List.length_pos_iff.mpr hspells.ne_nil
    simp only [Position.behind, List.length_append] at hlt ⊢
    omega

end Spelling

end ScalarScript
