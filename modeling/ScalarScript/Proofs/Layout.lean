import ScalarScript.Proofs.Limits
import ScalarScript.Proofs.Parser.Demand
import ScalarScript.Proofs.Run.Likeness
import ScalarScript.Proofs.Token.Recognition

/-!
# `ScalarScript.Proofs.Layout`: blanks between tokens

Blanks that are put before, between or behind the tokens of a text do not
change what it means. `Spaced text text'` says how the second text comes
from the first: the spellings are the same, and each run of blanks has
got further ones. A blank carries no spelling on, so the scanner reads
the same lexemes (`Scanner.layout`). Parsers and runs of sources that are
alike are alike, and `ends_of_spaced` says what comes of that: the
programs, the values and the terminals are the same, and so are the
errors, up to their places.
-/

set_option autoImplicit false

namespace ScalarScript

open Spelling

/-! ### Up to places -/

/-- The error, without its place. -/
def TokenError.unplaced : TokenError → TokenError
  | .unterminatedString _ => .unterminatedString .start
  | .stringTooLong limit _ => .stringTooLong limit .start
  | .malformedNumber fault _ => .malformedNumber fault .start
  | .inconsistentToken kind value _ => .inconsistentToken kind value .start

/-- The error, without its place. -/
def ParseError.unplaced : ParseError → ParseError
  | .token e => .token e.unplaced
  | .unexpectedToken expected found _ => .unexpectedToken expected found .start
  | .missingBody construct _ => .missingBody construct .start
  | .missingCondition construct _ => .missingCondition construct .start
  | .missingExpression found _ => .missingExpression found .start
  | .missingOperand operator found _ => .missingOperand operator found .start
  | .duplicateFunction name _ => .duplicateFunction name .start
  | .duplicateParameter function parameter _ => .duplicateParameter function parameter .start
  | .controlOutsideLoop keyword _ => .controlOutsideLoop keyword .start

/-- The error, without its place. -/
def RuntimeError.unplaced : RuntimeError → RuntimeError
  | .noMainFunction => .noMainFunction
  | .callDepthExceeded function limit => .callDepthExceeded function limit
  | .alreadyExists what name _ => .alreadyExists what name .start
  | .undefinedVariable name _ => .undefinedVariable name .start
  | .undefinedFunction name _ => .undefinedFunction name .start
  | .argumentCountMismatch function expected got _ =>
    .argumentCountMismatch function expected got .start
  | .badOperandType operator operands node _ => .badOperandType operator operands node .start
  | .divisionByZero _ => .divisionByZero .start
  | .castingError target value _ => .castingError target value .start
  | .typeMismatch destination name expected got _ =>
    .typeMismatch destination name expected got .start
  | .conditionNotBoolean got _ => .conditionNotBoolean got .start
  | .integerOverflow operation _ => .integerOverflow operation .start
  | .terminal error _ => .terminal error .start

/-- The failure, without its place in the text. -/
def Failure.unplaced : Failure → Failure
  | .source e => .source e
  | .token e => .token e.unplaced
  | .parse e => .parse e.unplaced
  | .runtime e => .runtime e.unplaced

/-- The outcome, and a failure without its place. -/
def Outcome.unplaced : Outcome Failure Value → Outcome Failure Value
  | .ok v t => .ok v t
  | .error failure t => .error failure.unplaced t
  | .unfinished => .unfinished

/-- Errors that are alike are the same up to their places. -/
theorem RuntimeError.Alike.unplaced_eq {R : Position → Position → Prop} {e e' : RuntimeError}
    (h : e.Alike R e') : e'.unplaced = e.unplaced := by
  cases h <;> rfl

/-- An error of reading becomes the same failure with its place and
without. -/
theorem Failure.unplaced_ofParseError (e : ParseError) :
    (Failure.ofParseError e).unplaced = .ofParseError e.unplaced := by
  cases e <;> rfl

/-! ### Blanks behind a spelling -/

namespace Spelling

/-- `Spaced text text'`: the second text has the spellings of the first,
and in front of each of them, and at the end, the blanks of the first
with any further ones among them. -/
inductive Spaced : List Char → List Char → Prop
  | last {gap gap' : List Char} :
      gap.Sublist gap' → (∀ c ∈ gap', Text.isBlank c = true) → Spaced gap gap'
  | token {gap gap' spelling rest rest' : List Char} {l : Lexeme} :
      gap.Sublist gap' → (∀ c ∈ gap', Text.isBlank c = true) → Spells l spelling rest.head? →
      Spaced rest rest' → Spaced (gap ++ spelling ++ rest) (gap' ++ spelling ++ rest')

variable {l : Lexeme} {spelling rest rest' : List Char} {next : Option Char} {c : Char}

/-- No symbol has a blank in it. -/
theorem not_isBlank_of_mem_ofSymbol {s : Symbol} (hs : spelling ∈ ofSymbol s) (hc : c ∈ spelling) :
    Text.isBlank c = false := by
  have hall : (Symbol.marks ++ Symbol.words).all (fun m => m.1.all (!Text.isBlank ·)) = true := by
    decide +kernel
  have hmem := List.mem_append.mpr ((Scanner.mem_ofSymbol_iff s spelling).mp hs)
  have hblank := List.all_eq_true.mp (List.all_eq_true.mp hall _ hmem) c hc
  rwa [Bool.not_eq_true'] at hblank

/-- A character of a word is not a blank. -/
theorem not_isBlank_of_isWordChar (h : Scanner.isWordChar c = true) : Text.isBlank c = false := by
  by_contra hblank
  rw [Bool.not_eq_false] at hblank
  rw [Scanner.not_isWordChar_of_isBlank hblank] at h
  cases h

/-- A blank is neither a digit nor a point. -/
theorem not_number_of_isBlank (h : Text.isBlank c = true) : c.isDigit = false ∧ c ≠ '.' := by
  constructor
  · by_contra hdigit
    rw [Bool.not_eq_false] at hdigit
    rw [not_isBlank_of_isWordChar (Scanner.class_of_isDigit hdigit).1] at h
    cases h
  · rintro rfl
    exact absurd h (by decide)

/-- A spelling does not start with a blank. -/
theorem Spells.head_not_isBlank (h : Spells l spelling next) (hc : c ∈ spelling.head?) :
    Text.isBlank c = false := by
  have hmem : c ∈ spelling := List.mem_of_mem_head? hc
  cases h with
  | mark hs _ _ | keyword hs _ _ => exact not_isBlank_of_mem_ofSymbol hs hmem
  | identifier halpha _ _ _ =>
    cases hc
    exact not_isBlank_of_isWordChar (Scanner.isWordChar_of_isAlphabetic halpha)
  | int hdigits _ _ =>
    exact not_isBlank_of_isWordChar (Scanner.class_of_isDigit (hdigits.all c hmem)).1
  | @float _ digits _ _ hdigits _ _ _ _ =>
    have hfirst : c ∈ digits.head? := by
      rwa [List.head?_append_of_ne_nil _ hdigits.nonempty] at hc
    have hdigit := hdigits.all c (List.mem_of_mem_head? hfirst)
    exact not_isBlank_of_isWordChar (Scanner.class_of_isDigit hdigit).1
  | string hquote _ =>
    cases hc
    rcases hquote with rfl | rfl <;> decide
  | unknown hblank _ _ _ _ _ =>
    cases hc
    exact hblank

/-- A blank carries no spelling on. -/
theorem Spells.before_blank (h : Spells l spelling next) (hc : Text.isBlank c = true) :
    Spells l spelling (some c) := by
  have hword : ∀ d ∈ some c, Scanner.isWordChar d = false := by
    intro d hd
    cases hd
    exact Scanner.not_isWordChar_of_isBlank hc
  have hnumber : ∀ d ∈ some c, d.isDigit = false ∧ d ≠ '.' := by
    intro d hd
    cases hd
    exact not_number_of_isBlank hc
  cases h with
  | mark hs hall _ =>
    refine .mark hs hall ?_
    intro d hd s' hs'
    cases hd
    rw [not_isBlank_of_mem_ofSymbol hs' (by simp)] at hc
    cases hc
  | keyword hs hall _ => exact .keyword hs hall hword
  | identifier halpha hall hnew _ => exact .identifier halpha hall hnew hword
  | int hdigits hn _ => exact .int hdigits hn hnumber
  | float hdigits hn hne hall _ => exact .float hdigits hn hne hall hnumber
  | string hquote hdecodes => exact .string hquote hdecodes
  | unknown hblank halpha hdigit hsingle hdouble hnew =>
    exact .unknown hblank halpha hdigit hsingle hdouble hnew

/-- The further blanks do not change the first character but to a
blank. -/
theorem Spaced.head? (h : Spaced rest rest') :
    rest'.head? = rest.head? ∨ ∃ c, rest'.head? = some c ∧ Text.isBlank c = true := by
  cases h with
  | @last gap gap' hgap hblank =>
    cases rest' with
    | nil => exact .inl (by rw [List.sublist_nil.mp hgap])
    | cons c rest' => exact .inr ⟨c, rfl, hblank c (by simp)⟩
  | @token gap gap' spelling rest rest' l hgap hblank hspells _ =>
    cases gap' with
    | nil =>
      have hne := hspells.ne_nil
      rw [List.sublist_nil.mp hgap, List.nil_append, List.head?_append_of_ne_nil _ hne,
        List.head?_append_of_ne_nil _ hne]
      exact .inl rfl
    | cons c gap' => exact .inr ⟨c, rfl, hblank c (by simp)⟩

/-- Further blanks do not make a spelling go on. -/
theorem Spells.spaced (h : Spells l spelling rest.head?) (hspaced : Spaced rest rest') :
    Spells l spelling rest'.head? := by
  rcases hspaced.head? with hsame | ⟨c, hhead, hblank⟩
  · rw [hsame]
    exact h
  · rw [hhead]
    exact h.before_blank hblank

end Spelling

/-! ### Scanners -/

namespace Scanner

/-- A spelling that is read in front of one text is read in front of
another. -/
theorem lexemeAt_before {limit : Nat} {l l₁ : Lexeme} {spelling rest rest' : List Char}
    {p p' : Position} {c : Cursor} (h : Spells l spelling rest.head?)
    (h' : Spells l spelling rest'.head?)
    (hread : lexemeAt limit ⟨spelling ++ rest, p⟩ = (.ok l₁, c)) :
    l₁ = l ∧ c = ⟨rest, p.after spelling⟩ ∧
      lexemeAt limit ⟨spelling ++ rest', p'⟩ = (.ok l, ⟨rest', p'.after spelling⟩) := by
  by_cases hstring : ∃ text, l = .string text
  · -- It was read in the first text, so it is not too long for the limit.
    obtain ⟨text, rfl⟩ := hstring
    cases h with
    | string hquote hdecodes =>
      rcases lexemeAt_of_string limit hquote hdecodes with hok | ⟨-, hfails⟩
      · cases hread.symm.trans (hok rest p)
        exact ⟨rfl, rfl, hok rest' p'⟩
      · obtain ⟨p', c', hfail⟩ := hfails rest p
        cases hread.symm.trans hfail
  · have hne : ∀ text, l ≠ .string text := fun text heq => hstring ⟨text, heq⟩
    cases hread.symm.trans (lexemeAt_of_spells limit h hne)
    exact ⟨rfl, rfl, lexemeAt_of_spells limit h' hne⟩

/-- What a scanner does behind the blanks that it skips. -/
theorem next_of_gap {s : Scanner} {gap rest : List Char} (hrest : s.cursor.rest = gap ++ rest)
    (hgap : ∀ c ∈ gap, Text.isBlank c = true) (hfirst : ∀ c ∈ rest.head?, Text.isBlank c = false) :
    s.next = ((lexemeAt s.limit ⟨rest, s.cursor.position.after gap⟩).1.map
        fun l => ⟨l, s.cursor.position.after gap⟩,
      ⟨(lexemeAt s.limit ⟨rest, s.cursor.position.after gap⟩).2, s.limit⟩) := by
  have hcursor : s.cursor = ⟨gap ++ rest, s.cursor.position⟩ := by rw [← hrest]
  have hskip : s.cursor.skip Text.isBlank = ⟨rest, s.cursor.position.after gap⟩ := by
    rw [hcursor]
    exact (run_append hgap hfirst).2
  unfold next
  rw [hskip]

/-- A scanner reads what is spelled behind blanks, and stops behind it. -/
theorem next_of_spells {s : Scanner} {gap spelling rest : List Char} {l : Lexeme}
    (hrest : s.cursor.rest = gap ++ (spelling ++ rest)) (hgap : ∀ c ∈ gap, Text.isBlank c = true)
    (hspells : Spells l spelling rest.head?) (hstring : ∀ text, l ≠ .string text) :
    s.next = (.ok ⟨l, s.cursor.position.after gap⟩,
      ⟨⟨rest, (s.cursor.position.after gap).after spelling⟩, s.limit⟩) := by
  have hfirst : ∀ c ∈ (spelling ++ rest).head?, Text.isBlank c = false := by
    intro c hc
    rw [List.head?_append_of_ne_nil _ hspells.ne_nil] at hc
    exact hspells.head_not_isBlank hc
  rw [next_of_gap hrest hgap hfirst, lexemeAt_of_spells s.limit hspells hstring]
  rfl

/-- Scanners of a text and of one with further blanks give tokens with the
same lexeme, and stay so. -/
theorem next_of_spaced {s s' r : Scanner} {t : Token} (hlimit : s'.limit = s.limit)
    (hspaced : Spaced s.cursor.rest s'.cursor.rest) (hnext : s.next = (.ok t, r)) :
    ∃ t' r', s'.next = (.ok t', r') ∧ t'.lexeme = t.lexeme ∧ r'.limit = r.limit ∧
      Spaced r.cursor.rest r'.cursor.rest := by
  generalize hrest : s.cursor.rest = text at hspaced
  generalize hrest' : s'.cursor.rest = text' at hspaced
  cases hspaced with
  | last hsublist hblank =>
    have hend : ∀ c ∈ ([] : List Char).head?, Text.isBlank c = false := by simp
    rw [← List.append_nil text] at hrest
    rw [← List.append_nil text'] at hrest'
    rw [next_of_gap hrest (fun c hc => hblank c (hsublist.subset hc)) hend] at hnext
    rw [next_of_gap hrest' hblank hend]
    cases hnext
    have hempty : Spaced [] [] := .last (.refl _) (by simp)
    exact ⟨_, _, rfl, rfl, hlimit, hempty⟩
  | @token gap gap' spelling rest rest' l hsublist hblank hspells hspaced =>
    -- Both scanners skip their gaps and come to the same spelling, which ends at its end in
    -- both texts.
    have hspells' := hspells.spaced hspaced
    have hfirst : ∀ tail, ∀ c ∈ (spelling ++ tail).head?, Text.isBlank c = false := by
      intro tail c hc
      rw [List.head?_append_of_ne_nil _ hspells.ne_nil] at hc
      exact hspells.head_not_isBlank hc
    rw [List.append_assoc] at hrest hrest'
    rw [next_of_gap hrest (fun c hc => hblank c (hsublist.subset hc)) (hfirst rest)] at hnext
    rw [next_of_gap hrest' hblank (hfirst rest'), hlimit]
    generalize hread : lexemeAt s.limit ⟨spelling ++ rest, s.cursor.position.after gap⟩ = read
      at hnext
    rcases read with ⟨e | l₁, c⟩
    · cases hnext
    · cases hnext
      obtain ⟨rfl, rfl, hread'⟩ := lexemeAt_before hspells hspells' hread
      rw [hread']
      exact ⟨_, _, rfl, rfl, rfl, hspaced⟩

/-- A text that can be split into tokens, and one with further blanks. -/
def layout : TokenSource.Likeness Scanner Scanner where
  source := fun s s' => (∃ ts, s.tokens = .ok ts) ∧ s'.limit = s.limit ∧
    Spaced s.cursor.rest s'.cursor.rest
  token := fun t t' => t'.lexeme = t.lexeme
  fault := fun _ _ => False
  lost := fun _ => False
  lexeme_eq := fun h => h
  next := by
    rintro s s' t r ⟨⟨ts, hts⟩, hlimit, hspaced⟩ hnext
    have hrest : ∃ us, r.tokens = .ok us := by
      obtain ⟨us, -, hus⟩ := simulates_tokens.next hts hnext
      exact ⟨us, hus⟩
    obtain ⟨t', r', hnext', hlexeme, hlimit', hspaced'⟩ := next_of_spaced hlimit hspaced hnext
    exact ⟨t', r', hnext', hlexeme, hrest, hlimit', hspaced'⟩
  fail := by
    rintro s s' e r ⟨⟨ts, hts⟩, -, -⟩ hnext
    rw [tokens_of_next_error hnext] at hts
    cases hts

/-- All places are related, since layout may move every token. -/
theorem layout_place (x x' : Position) : layout.Place x x' :=
  ⟨.endOfText, rfl⟩

/-- The tokens of the two texts have the same lexemes. -/
theorem tokens_of_spaced {s s' : Scanner} {ts : List Token} (h : layout.source s s')
    (hts : s.tokens = .ok ts) :
    ∃ ts', s'.tokens = .ok ts' ∧ ts'.map Token.lexeme = ts.map Token.lexeme := by
  -- Every token but the last makes the scanner smaller.
  induction hn : s.size using Nat.strongRecOn generalizing s s' ts with
  | ind n ih =>
    rcases hnext : s.next with ⟨e | t, r⟩
    · rw [tokens_of_next_error hnext] at hts
      cases hts
    · obtain ⟨t', r', hnext', hlexeme, hsource⟩ := layout.next h hnext
      have hlexeme : t'.lexeme = t.lexeme := hlexeme
      have hweight : t'.weight = t.weight := by
        unfold Token.weight
        rw [hlexeme]
      rw [tokens_of_next_ok hnext] at hts
      rw [tokens_of_next_ok hnext', hweight]
      by_cases ht : t.weight = 0
      · rw [if_pos ht] at hts ⊢
        cases hts
        exact ⟨[t'], rfl, by simp [hlexeme]⟩
      · rw [if_neg ht] at hts ⊢
        cases hrest : r.tokens with
        | error e =>
          rw [hrest] at hts
          cases hts
        | ok us =>
          rw [hrest] at hts
          cases hts
          have hsize := size_next_add_weight_le hnext
          obtain ⟨us', hus', hmap⟩ := ih r.size (by omega) hsource hrest rfl
          rw [hus']
          exact ⟨t' :: us', rfl, by simp [hlexeme, hmap]⟩

end Scanner

/-! ### Whole texts -/

/-- Errors of reading that are alike are the same up to their places. -/
theorem ParseError.Alike.unplaced_eq {e e' : ParseError} (h : e.Alike Scanner.layout e') :
    e'.unplaced = e.unplaced := by
  cases h with
  | token hnone => exact hnone.elim
  | _ => rfl

section

variable {text text' : String} {limit : Nat} {ts : List Token}
  (htokens : (Scanner.ofString text limit).tokens = .ok ts)
  (hspaced : Spaced text.toList text'.toList)
include htokens hspaced

/-- The two texts spell the same program up to places, or the same error
up to its place. -/
theorem Program.ofString_of_spaced :
    (∃ program program', Program.ofString text limit = .ok program ∧
      Program.ofString text' limit = .ok program' ∧ program.Alike (fun _ _ => True) program') ∨
    ∃ e e', Program.ofString text limit = .error e ∧ Program.ofString text' limit = .error e' ∧
      e'.unplaced = e.unplaced := by
  have hsource : Scanner.layout.source (Scanner.ofString text limit)
      (Scanner.ofString text' limit) := ⟨⟨ts, htokens⟩, rfl, hspaced⟩
  have hplace : Scanner.layout.Place = fun _ _ => True := by
    funext x x'
    exact eq_true (Scanner.layout_place x x')
  have halike : Program.ResultsAlike Scanner.layout (Program.ofString text limit)
      (Program.ofString text' limit) := Program.ofSource_alike hsource
  generalize Program.ofString text limit = result at halike
  generalize Program.ofString text' limit = result' at halike
  cases halike with
  | ok hprogram => exact .inl ⟨_, _, rfl, rfl, hplace ▸ hprogram⟩
  | error he => exact .inr ⟨_, _, rfl, rfl, he.unplaced_eq⟩
  | lost hnone => exact hnone.elim

end

/-- Programs that are the same up to places run alike. -/
theorem Program.Alike.run_unplaced {program program' : Program}
    (h : program.Alike (fun _ _ => True) program') (limits : Limits) (fuel : Nat) (start : Terminal) :
    ((program'.run limits fuel).asFailure start).unplaced =
      ((program.run limits fuel).asFailure start).unplaced := by
  have hagrees := h.run_agrees (L := .atOneTerminal (fun _ _ => True) fun _ => False) limits fuel
    start start rfl
  unfold Run.asFailure
  generalize program.run limits fuel start = outcome at hagrees ⊢
  generalize program'.run limits fuel start = outcome' at hagrees ⊢
  cases hagrees with
  | ok hv ht =>
    cases hv
    cases ht
    rfl
  | error he ht =>
    cases ht
    show Outcome.error (Failure.runtime _) _ = Outcome.error (Failure.runtime _) _
    rw [he.unplaced_eq]
  | lost hnone => exact hnone.elim
  | unfinished => rfl

/-- With the same rounds for each loop, a text with further blanks is run
alike, up to places. -/
theorem executeText_of_spaced {text text' : String} {limits : Limits} {ts : List Token}
    (htokens : (Scanner.ofString text limits.stringLength).tokens = .ok ts)
    (hspaced : Spaced text.toList text'.toList) (fuel : Nat) (start : Terminal) :
    (executeText text' limits fuel start).unplaced =
      (executeText text limits fuel start).unplaced := by
  unfold executeText
  rcases Program.ofString_of_spaced htokens hspaced with
    ⟨program, program', hprogram, hprogram', halike⟩ | ⟨e, e', he, he', hunplaced⟩
  · rw [hprogram, hprogram']
    exact halike.run_unplaced limits fuel start
  · rw [he, he']
    show Outcome.error (Failure.ofParseError e').unplaced start =
      Outcome.error (Failure.ofParseError e).unplaced start
    rw [Failure.unplaced_ofParseError, Failure.unplaced_ofParseError, hunplaced]

/-- Leaving out places does not end a run that has not ended. -/
theorem Outcome.unplaced_eq_unfinished_iff (outcome : Outcome Failure Value) :
    outcome.unplaced = .unfinished ↔ outcome = .unfinished := by
  cases outcome <;> simp [unplaced]

/-- Runs that are alike at all rounds end alike. -/
theorem Ends.of_unplaced_eq {run run' : Nat → Run Failure Value} {start : Terminal}
    {outcome : Outcome Failure Value} (h : Ends run start outcome)
    (hsame : ∀ fuel, (run' fuel start).unplaced = (run fuel start).unplaced) :
    ∃ outcome', Ends run' start outcome' ∧ outcome'.unplaced = outcome.unplaced := by
  obtain ⟨hne, fuel, rfl⟩ := h
  have hends : run' fuel start ≠ .unfinished := by
    rw [ne_eq, ← Outcome.unplaced_eq_unfinished_iff, hsame, Outcome.unplaced_eq_unfinished_iff]
    exact hne
  exact ⟨_, ⟨hends, fuel, rfl⟩, hsame fuel⟩

/-- Layout does not change meaning. Take a text that can be split into
tokens and put further blanks before, between or behind them. The new
text has tokens with the same lexemes. It spells the same program up to
places, or the same error up to its place. And its run ends exactly if
the run of the first text does, with the same value or the same failure
up to its place, and with the same terminal. -/
theorem ends_of_spaced (text text' : String) (limits : Limits) (ts : List Token)
    (htokens : (Scanner.ofString text limits.stringLength).tokens = .ok ts)
    (hspaced : Spaced text.toList text'.toList) :
    (∃ ts', (Scanner.ofString text' limits.stringLength).tokens = .ok ts' ∧
      ts'.map Token.lexeme = ts.map Token.lexeme) ∧
    (∀ program, Program.ofString text limits.stringLength = .ok program →
      ∃ program', Program.ofString text' limits.stringLength = .ok program' ∧
        program.Alike (fun _ _ => True) program') ∧
    (∀ e, Program.ofString text limits.stringLength = .error e →
      ∃ e', Program.ofString text' limits.stringLength = .error e' ∧ e'.unplaced = e.unplaced) ∧
    ∀ start unplaced,
      (∃ outcome, Ends (executeText text limits) start outcome ∧ outcome.unplaced = unplaced) ↔
      ∃ outcome', Ends (executeText text' limits) start outcome' ∧
        outcome'.unplaced = unplaced := by
  have hparsed := Program.ofString_of_spaced htokens hspaced
  refine ⟨?_, ?_, ?_, ?_⟩
  · exact Scanner.tokens_of_spaced ⟨⟨ts, htokens⟩, rfl, hspaced⟩ htokens
  · intro program hprogram
    rcases hparsed with ⟨_, program', hsame, hprogram', halike⟩ | ⟨e, _, he, _, _⟩
    · cases hprogram.symm.trans hsame
      exact ⟨program', hprogram', halike⟩
    · cases hprogram.symm.trans he
  · intro e he
    rcases hparsed with ⟨_, _, hprogram, _, _⟩ | ⟨_, e', hsame, he', hunplaced⟩
    · cases he.symm.trans hprogram
    · cases he.symm.trans hsame
      exact ⟨e', he', hunplaced⟩
  · intro start unplaced
    have hsame : ∀ fuel, (executeText text' limits fuel start).unplaced =
        (executeText text limits fuel start).unplaced :=
      fun fuel => executeText_of_spaced htokens hspaced fuel start
    constructor
    · intro h
      obtain ⟨outcome, hends, rfl⟩ := h
      exact hends.of_unplaced_eq hsame
    · intro h
      obtain ⟨outcome', hends', rfl⟩ := h
      exact hends'.of_unplaced_eq fun fuel => (hsame fuel).symm

/-- A text that can be split into tokens is one with no further blanks. -/
theorem Spelling.Splits.spaced {before text : List Char} {ts : List Token}
    (h : Splits before text ts) : Spaced text text := by
  induction h with
  | last hblank => exact .last (.refl _) hblank
  | token hblank hspells _ ih => exact .token (.refl _) hblank hspells ih

/-- A further blank may stand in front of a text. -/
theorem Spelling.Spaced.cons {text text' : List Char} (h : Spaced text text') {c : Char}
    (hc : Text.isBlank c = true) : Spaced text (c :: text') := by
  have hblank : ∀ {gap : List Char}, (∀ d ∈ gap, Text.isBlank d = true) →
      ∀ d ∈ c :: gap, Text.isBlank d = true := by
    intro gap hgap d hd
    rcases List.mem_cons.mp hd with rfl | hd
    · exact hc
    · exact hgap d hd
  cases h with
  | last hsublist hgap => exact .last (hsublist.cons c) (hblank hgap)
  | token hsublist hgap hspells hspaced =>
    exact .token (hsublist.cons c) (hblank hgap) hspells hspaced

/-- Blanks in front of a program and between its first two tokens. -/
theorem ends_of_spaced_line_feed :
    ∃ outcome', Ends (executeText "\t main\n() returns int\x7b\x7d" ⟨1, 0⟩) (.scripted [])
        outcome' ∧ outcome'.unplaced = .ok (.int 0) (.scripted []) := by
  have htokens : ∃ ts, (Scanner.ofString "main() returns int\x7b\x7d" 0).tokens = .ok ts :=
    ⟨_, by with_unfolding_all rfl⟩
  have hbehind : ∃ ts, (Scanner.ofString "() returns int\x7b\x7d" 0).tokens = .ok ts :=
    ⟨_, by with_unfolding_all rfl⟩
  obtain ⟨ts, htokens⟩ := htokens
  obtain ⟨us, hbehind⟩ := hbehind
  have hspells : Spells (.identifier "main") "main".toList (some '(') := by
    have hword : "ain".toList.all Scanner.isWordChar = true := by decide
    refine .identifier (by decide) (fun c hc => List.all_eq_true.mp hword c hc) ?_ ?_
    · intro s
      cases s <;> decide
    · intro c hc
      cases hc
      decide
  have hspaced : Spaced "main() returns int\x7b\x7d".toList
      "\t main\n() returns int\x7b\x7d".toList := by
    have hgap : "\t ".toList.all Text.isBlank = true := by decide
    have hsplits : Splits [] "() returns int\x7b\x7d".toList us :=
      Scanner.splits_of_tokens rfl hbehind
    have hrest := hsplits.spaced.cons (c := '\n') (by decide)
    exact @Spaced.token [] "\t ".toList "main".toList _ _ _ (by simp)
      (fun c hc => List.all_eq_true.mp hgap c hc) hspells hrest
  have hrun : executeText "main() returns int\x7b\x7d" ⟨1, 0⟩ 0 (.scripted []) =
      .ok (.int 0) (.scripted []) := by with_unfolding_all rfl
  obtain ⟨-, -, -, hends⟩ := ends_of_spaced _ _ ⟨1, 0⟩ ts htokens hspaced
  exact (hends (.scripted []) _).mp ⟨_, ⟨by simp, 0, hrun⟩, rfl⟩

end ScalarScript
