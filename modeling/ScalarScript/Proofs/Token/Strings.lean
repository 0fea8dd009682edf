import ScalarScript.Proofs.Token.Recognition

/-!
# `ScalarScript.Proofs.Token.Strings`: the strings of a text

Two results on the strings that a scanner gives:

* `next_escaped`: any text can be written as a string, and is read back.
  `escaped` writes it. A backslash goes in front of the quote and of a
  backslash, and a control character may be written by its letter or by
  itself, at each place anew.
* `string_limit`: which strings the limit lets through. These are the
  strings that are not longer than it, and besides them the ones that
  `Overhangs` describes. There a backslash that stands for itself is the
  last character that fits, and the character behind it is read with it.
  So a token may carry one character more than the limit says, which
  `string_longer_than_limit` shows of the shortest such string.
-/

set_option autoImplicit false

namespace ScalarScript

namespace Scanner

open Spelling

variable {quote : Char} {limit : Nat} {rest : List Char} {p : Position}

/-- A quote stands at once at the beginning of a string. -/
theorem next_of_quote (hquote : quote = '\'' ∨ quote = '"') :
    (⟨⟨quote :: rest, p⟩, limit⟩ : Scanner).next =
      ((stringBody p limit quote limit rest (p.next quote)).1.map
        fun cs => ⟨.string (String.ofList cs), p⟩,
        ⟨(stringBody p limit quote limit rest (p.next quote)).2, limit⟩) := by
  have hblank : Text.isBlank quote = false := by rcases hquote with rfl | rfl <;> decide
  have hskip : (⟨quote :: rest, p⟩ : Cursor).skip Text.isBlank = ⟨quote :: rest, p⟩ := by
    simp [Cursor.skip, Cursor.run, hblank]
  unfold next
  dsimp only
  rw [hskip, lexemeAt_of_quote limit hquote]
  generalize stringBody p limit quote limit rest (p.next quote) = read
  obtain ⟨_ | cs, c⟩ := read <;> rfl

/-! ### Writing a text as a string -/

/-- The letter that stands for a control character behind a backslash. -/
def letter? : Char → Option Char
  | '\n' => some 'n'
  | '\r' => some 'r'
  | '\t' => some 't'
  | '\x08' => some 'b'
  | '\x0c' => some 'f'
  | '\x00' => some '0'
  | _ => none

/-- One character in a string that `quote` closes. `short` says whether a
control character is written by its letter. -/
def escapeChar (quote : Char) (short : Bool) (c : Char) : List Char :=
  if c = quote ∨ c = '\\' then ['\\', c]
  else match letter? c with
    | some letter => if short then ['\\', letter] else [c]
    | none => [c]

/-- The inside of a string that stands for `text`. The choice for the
character number `n` is `short n`. -/
def escaped (quote : Char) (short : Nat → Bool) (text : String) : List Char :=
  text.toList.zipIdx.flatMap fun c => escapeChar quote (short c.2) c.1

/-- A control character that has a letter is written by it, and the letter
is no quote. -/
theorem mem_escapes_of_letter? {c letter : Char} (h : letter? c = some letter) :
    (letter, c) ∈ escapes ∧ letter ≠ '\'' ∧ letter ≠ '"' := by
  unfold letter? at h
  split at h <;> cases h <;> decide

/-- Each character is written as a piece that stands for it, in either
way. -/
theorem stands_escapeChar (hquote : quote = '\'' ∨ quote = '"') (short : Bool) (c : Char) :
    Stands quote (escapeChar quote short c) [c] := by
  unfold escapeChar
  split
  · rename_i hc
    refine .escape ?_
    by_cases hself : c = quote
    · subst hself
      exact if_pos rfl
    · have hslash : (c, c) ∈ escapes := by
        rw [hc.resolve_left hself]
        decide
      exact unescape_of_mem hself hslash
  · rename_i hc
    rw [not_or] at hc
    split
    · rename_i letter hletter
      obtain ⟨hmem, hsingle, hdouble⟩ := mem_escapes_of_letter? hletter
      split
      · refine .escape (unescape_of_mem ?_ hmem)
        rcases hquote with rfl | rfl
        · exact hsingle
        · exact hdouble
      · exact .plain hc.1 hc.2
    · exact .plain hc.1 hc.2

/-- A text that is written as a string is read back. -/
theorem decodes_escaped (hquote : quote = '\'' ∨ quote = '"') (short : Nat → Bool)
    (text : String) : Decodes quote (escaped quote short text) text.toList := by
  unfold escaped
  generalize 0 = first
  induction text.toList generalizing first with
  | nil => exact .nil
  | cons c cs ih =>
    rw [List.zipIdx_cons, List.flatMap_cons]
    exact (stands_escapeChar hquote (short first) c).decodes_append (ih (first + 1))

/-- A text that is written as a string is read back, whatever characters
it is made of, and the scanner stands behind the closing quote. -/
theorem next_escaped (hquote : quote = '\'' ∨ quote = '"') (text : String) (short : Nat → Bool)
    (hlimit : text.length ≤ limit) (rest : List Char) (p : Position) :
    (⟨⟨quote :: (escaped quote short text ++ quote :: rest), p⟩, limit⟩ : Scanner).next =
      (.ok ⟨.string text, p⟩,
        ⟨⟨rest, p.after (quote :: (escaped quote short text ++ [quote]))⟩, limit⟩) := by
  have hlength : text.toList.length ≤ limit := by rwa [String.length_toList]
  rw [next_of_quote hquote, stringBody_of_length_le (ne_backslash_of_quote hquote)
    (decodes_escaped hquote short text) hlength]
  simp [Except.map]

/-- A backslash and the letter `n`, two line feeds of which the second is
written by its letter, and both quotes. -/
theorem next_escaped_line_feeds :
    "\\n\n\n'\"".length ≤ 6 ∧
      (⟨⟨"\"\\\\n\n\\n'\\\"\"n".toList, .start⟩, 6⟩ : Scanner).next =
        (.ok ⟨.string "\\n\n\n'\"", .start⟩, ⟨⟨['n'], ⟨2, 7, 12⟩⟩, 6⟩) := by
  have hlimit : "\\n\n\n'\"".length ≤ 6 := by decide
  exact ⟨hlimit, next_escaped (.inr rfl) "\\n\n\n'\"" (fun n => n = 3) hlimit ['n'] .start⟩

/-! ### The limit -/

/-- A token that carries a string is spelled by one that fits. -/
theorem fits_of_next {s s' : Scanner} {t : Token} {text : String}
    (h : s.next = (.ok t, s')) (htext : t.lexeme = .string text) :
    ∃ quote body, (quote = '\'' ∨ quote = '"') ∧ Decodes quote body text.toList ∧
      (text.length ≤ s.limit ∨ Overhangs quote s.limit body) := by
  obtain ⟨-, ⟨-, hend⟩ | ⟨spelling, hpasses, hspells⟩⟩ := next_eq_ok h
  · rw [htext] at hend
    cases hend
  rw [htext] at hspells
  cases hspells with
  | @string quote body cs _ hquote hdecodes =>
    have htext : (s.cursor.skip Text.isBlank).rest = quote :: (body ++ quote :: s'.cursor.rest) := by
      simp [hpasses.rest_eq]
    refine ⟨quote, body, hquote, by simpa using hdecodes, ?_⟩
    -- Were it too long, there would be an error in place of the token.
    by_contra hlong
    rw [not_or, Nat.not_le, String.length_ofList] at hlong
    obtain ⟨before, behind, taken, -, -, -, hfails⟩ :=
      stringBody_too_long (ne_backslash_of_quote hquote) hdecodes hlong.1 hlong.2
    unfold next at h
    dsimp only at h
    generalize s.cursor.skip Text.isBlank = c at h htext
    obtain ⟨rest, p⟩ := c
    subst htext
    rw [lexemeAt_of_quote s.limit hquote, hfails] at h
    cases h

/-- The limit on strings. A string is read if it is not longer than the
limit or overhangs it, and any other one is an error at the first place
that there is no room for. So a token carries at most as many characters
as the limit, or one more, and then the last two are a backslash and a
character that it does not escape. -/
theorem string_limit (limit : Nat) :
    (∀ quote body cs, (quote = '\'' ∨ quote = '"') → Decodes quote body cs →
      (cs.length ≤ limit ∨ Overhangs quote limit body → ∀ rest p,
        (⟨⟨quote :: (body ++ quote :: rest), p⟩, limit⟩ : Scanner).next =
          (.ok ⟨.string (String.ofList cs), p⟩,
            ⟨⟨rest, p.after (quote :: (body ++ [quote]))⟩, limit⟩)) ∧
      (limit < cs.length ∧ ¬ Overhangs quote limit body →
        ∃ before behind taken, body = before ++ behind ∧ Decodes quote before taken ∧
          limit ≤ taken.length ∧ ∀ rest p,
            (⟨⟨quote :: (body ++ quote :: rest), p⟩, limit⟩ : Scanner).next =
              (.error (.stringTooLong limit (p.after (quote :: before))),
                ⟨⟨behind ++ quote :: rest, p.after (quote :: before)⟩, limit⟩))) ∧
    ∀ (c : Cursor) (t : Token) (s' : Scanner) (text : String),
      (⟨c, limit⟩ : Scanner).next = (.ok t, s') → t.lexeme = .string text →
      text.length ≤ limit ∨ text.length = limit + 1 ∧
        ∃ before e, text.toList = before ++ ['\\', e] ∧ ∀ d, (e, d) ∉ escapes := by
  refine ⟨?_, ?_⟩
  · intro quote body cs hquote h
    have hslash := ne_backslash_of_quote hquote
    refine ⟨?_, ?_⟩
    · intro hfits rest p
      rw [next_of_quote hquote, stringBody_of_fits hslash h hfits]
      rfl
    · intro hlong
      obtain ⟨before, behind, taken, hbody, hbefore, htaken, hfails⟩ :=
        stringBody_too_long hslash h hlong.1 hlong.2
      refine ⟨before, behind, taken, hbody, hbefore, htaken, ?_⟩
      intro rest p
      rw [next_of_quote hquote, hfails]
      rfl
  -- The other direction: a token that carries a string was read from a body that fits, or from one
  -- that hangs over, and then it is one character too long.
  · intro c t s' text hnext htext
    obtain ⟨quote, body, hquote, hdecodes, hle | hover⟩ := fits_of_next hnext htext
    · exact .inl hle
    · obtain ⟨before, taken, e, rfl, hbefore, he, hnone, rfl⟩ := hover
      have hall := decodes_append hbefore (.other he hnone .nil)
      have hcs := decodes_unique (ne_backslash_of_quote hquote) hdecodes hall
      refine .inr ⟨?_, taken, e, hcs, hnone⟩
      rw [← String.length_toList, hcs]
      simp

/-- With a limit of three, a string that ends in an unknown escape is read
with four characters. -/
theorem string_limit_three :
    Decodes '"' "ab\\q".toList "ab\\q".toList ∧ Overhangs '"' 3 "ab\\q".toList ∧
      (⟨⟨"\"ab\\q\";".toList, .start⟩, 3⟩ : Scanner).next =
        (.ok ⟨.string "ab\\q", .start⟩, ⟨⟨[';'], ⟨1, 7, 7⟩⟩, 3⟩) := by
  have hnone : ∀ d, ('q', d) ∉ escapes := by simp [escapes]
  have hbefore : Decodes '"' ['a', 'b'] ['a', 'b'] :=
    .plain (by decide) (by decide) (.plain (by decide) (by decide) .nil)
  have hdecodes : Decodes '"' "ab\\q".toList "ab\\q".toList :=
    decodes_append hbefore (.other (by decide) hnone .nil)
  have hover : Overhangs '"' 3 "ab\\q".toList :=
    ⟨['a', 'b'], ['a', 'b'], 'q', rfl, hbefore, by decide, hnone, rfl⟩
  exact ⟨hdecodes, hover,
    ((string_limit 3).1 '"' _ _ (.inr rfl) hdecodes).1 (.inr hover) [';'] .start⟩

/-- A limit does not bound the strings of a text. -/
theorem string_longer_than_limit :
    (ofString "\"\\q\"" 1).next = (.ok ⟨.string "\\q", .start⟩, ⟨⟨[], ⟨1, 5, 5⟩⟩, 1⟩) ∧
      ¬ "\\q".length ≤ 1 :=
  ⟨by rfl, by decide⟩

end Scanner

end ScalarScript
