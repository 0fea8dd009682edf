import ScalarScript.Proofs.Parser.Demand
import ScalarScript.Proofs.Token.Segmentation

/-!
# `ScalarScript.Proofs.Token.Places`: where a scanner stands in its text

A scanner never leaves its text. Whatever it gives, a token or an error,
its cursor stays within the text, at the place that the characters in
front of it have, and an error is at such a place too (`StaysIn`). Each
reader of the scanner has one lemma for this; `next_staysIn` is the step,
and `within_afterCalls` goes on to any number of calls, also past errors.

`TokenSource.Gives` are the tokens that come before any error. A scanner
gives at most one token at a place (`eq_of_gives`), since it moves on with
every token.
-/

set_option autoImplicit false

namespace ScalarScript

/-- The place is that of a character of the text, or behind the last. -/
def Position.IsIn (p : Position) (text : List Char) : Prop :=
  ∃ k ≤ text.length, p = .behind (text.take k)

/-- Each character counts for one in the offset. -/
theorem Position.offset_after (p : Position) (cs : List Char) :
    (p.after cs).offset = p.offset + cs.length := by
  induction cs generalizing p with
  | nil => rfl
  | cons c cs ih =>
    have hnext : (p.next c).offset = p.offset + 1 := by
      unfold next
      split <;> rfl
    rw [after_cons, ih, hnext, List.length_cons]
    omega

/-! ### Cursors within a text -/

namespace Cursor

/-- The cursor is at the rest of the text, and at its place. -/
def Within (c : Cursor) (text : List Char) : Prop :=
  ∃ before, text = before ++ c.rest ∧ c.position = .behind before

variable {c c' : Cursor} {cs text : List Char}

/-- A cursor starts within its text. -/
theorem within_ofString (text : String) : (ofString text).Within text.toList :=
  ⟨[], rfl, rfl⟩

/-- A cursor within a text is at a place in it. -/
theorem Within.isIn (h : c.Within text) : c.position.IsIn text := by
  obtain ⟨before, rfl, hposition⟩ := h
  refine ⟨before.length, by simp, ?_⟩
  rw [hposition, List.take_left]

/-- A cursor that passes characters stays within the text. -/
theorem Within.passes (h : c.Within text) (hpasses : c.Passes cs c') : c'.Within text := by
  obtain ⟨before, rfl, hposition⟩ := h
  refine ⟨before ++ cs, ?_, hpasses.behind hposition⟩
  rw [hpasses.rest_eq, List.append_assoc]

/-- A cursor that skips characters stays within the text. -/
theorem Within.skip (h : c.Within text) (p : Char → Bool) : (c.skip p).Within text :=
  h.passes (c.passes_skip p)

/-- A cursor that drops characters stays within the text. -/
theorem Within.drop (h : c.Within text) (n : Nat) : (c.drop n).Within text := by
  have hpasses : c.Passes (c.rest.take n) (c.drop n) :=
    ⟨(List.take_append_drop n c.rest).symm, rfl⟩
  exact h.passes hpasses

/-- A cursor that takes one character stays within the text. -/
theorem Within.next {first : Char} {rest : List Char} {p : Position}
    (h : Cursor.Within ⟨first :: rest, p⟩ text) : Cursor.Within ⟨rest, p.next first⟩ text := by
  have hpasses : Passes ⟨first :: rest, p⟩ [first] ⟨rest, p.next first⟩ := ⟨rfl, rfl⟩
  exact h.passes hpasses

end Cursor

namespace Scanner

/-! ### Readers -/

/-- What a reader gives within a text: the cursor behind it is within the
text, and an error is at a place in it. -/
structure StaysIn {α : Type} (text : List Char) (r : Except TokenError α × Cursor) : Prop where
  cursor : r.2.Within text
  error : ∀ e, r.1 = .error e → e.position.IsIn text

section

variable {α β : Type} {text : List Char} {c : Cursor}

/-- A reader that succeeds within the text stays in it. -/
theorem staysIn_ok (h : c.Within text) (a : α) : StaysIn text (.ok a, c) :=
  ⟨h, by simp⟩

/-- A reader that fails with an error in the text stays in it. -/
theorem staysIn_error (h : c.Within text) {e : TokenError} (he : e.position.IsIn text) :
    StaysIn text ((.error e, c) : Except TokenError α × Cursor) := by
  refine ⟨h, ?_⟩
  intro e' he'
  cases he'
  exact he

/-- A reader that goes on with what was read stays in the text, if the
errors of going on do. -/
theorem StaysIn.bind {r : Except TokenError α × Cursor} (h : StaysIn text r)
    {f : α → Except TokenError β} (hf : ∀ a e, f a = .error e → e.position.IsIn text) :
    StaysIn text (r.1.bind f, r.2) := by
  refine ⟨h.cursor, ?_⟩
  intro e he
  rcases r with ⟨e' | a, c⟩
  · cases he
    exact h.error _ rfl
  · exact hf a e he

/-- A lexeme that is refused is refused at its own place. -/
theorem position_of_ofParts_eq_error {kind : Kind} {value : Option TokenValue} {p : Position}
    {e : TokenError} (h : Lexeme.ofParts kind value p = .error e) : e.position = p := by
  unfold Lexeme.ofParts at h
  split at h
  · cases h
  · cases h
    rfl

/-- A lexeme that is refused is refused at its place. -/
theorem ofParts_staysIn {p : Position} (hp : p.IsIn text) (h : c.Within text) (kind : Kind)
    (value : Option TokenValue) : StaysIn text (Lexeme.ofParts kind value p, c) := by
  refine ⟨h, ?_⟩
  intro e he
  rw [position_of_ofParts_eq_error he]
  exact hp

/-- Characters in front of a string change nothing of where it is. -/
theorem prepend_staysIn {r : Except TokenError (List Char) × Cursor} (h : StaysIn text r)
    (cs : List Char) : StaysIn text (prepend cs r) := by
  rcases r with ⟨e | ds, c⟩
  · exact h
  · exact staysIn_ok h.cursor _

/-- An error of a string is at its opening quote or at the character that
is too much. -/
theorem stringBody_staysIn {opening : Position} (hopening : opening.IsIn text) (limit : Nat)
    (quote : Char) (room : Nat) (cs : List Char) (p : Position)
    (h : Cursor.Within ⟨cs, p⟩ text) :
    StaysIn text (stringBody opening limit quote room cs p) := by
  fun_induction stringBody opening limit quote room cs p with
  -- The text ends inside the string, and the error is at its quote.
  | case1 => exact staysIn_error h hopening
  | case2 => exact staysIn_ok h.next _
  | case3 => exact staysIn_error h h.isIn
  -- The same behind a backslash.
  | case4 => exact staysIn_error h.next hopening
  | case5 _ _ _ e _ _ ih => exact prepend_staysIn (ih h.next.next) _
  | case6 _ c' _ _ _ _ _ ih => exact prepend_staysIn (ih h.next) _

/-- A string stays in the text. -/
theorem stringAt_staysIn (h : c.Within text) (limit : Nat) (quote : Char) :
    StaysIn text (stringAt limit quote c) := by
  have hbody := stringBody_staysIn h.isIn limit quote limit (c.drop 1).rest (c.drop 1).position
    (h.drop 1)
  refine hbody.bind fun cs e he => ?_
  rw [position_of_ofParts_eq_error he]
  exact h.isIn

/-- What stands behind a number stays in the text. -/
theorem closeNumber_staysIn {start : Position} (hstart : start.IsIn text) (h : c.Within text)
    (value : TokenValue) : StaysIn text (closeNumber start value c) := by
  unfold closeNumber
  split
  · exact ofParts_staysIn hstart h _ _
  · split
    · exact staysIn_error h h.isIn
    · exact ofParts_staysIn hstart h _ _

/-- A fraction stays in the text. -/
theorem fractionAt_staysIn {start : Position} (hstart : start.IsIn text) (h : c.Within text)
    (n : Int64) : StaysIn text (fractionAt start n c) := by
  have hskip := h.skip Char.isDigit
  unfold fractionAt
  dsimp only
  split
  · exact staysIn_error hskip hskip.isIn
  · split
    · exact staysIn_error hskip hstart
    · exact closeNumber_staysIn hstart hskip _

/-- A number stays in the text. -/
theorem numberAt_staysIn (h : c.Within text) : StaysIn text (numberAt c) := by
  have hskip := h.skip Char.isDigit
  unfold numberAt
  dsimp only
  split
  · exact staysIn_error hskip h.isIn
  · split
    · exact staysIn_error hskip h.isIn
    · split
      · exact fractionAt_staysIn h.isIn (hskip.drop 1) _
      · exact closeNumber_staysIn h.isIn hskip _

/-- A word stays in the text. -/
theorem wordAt_staysIn (h : c.Within text) : StaysIn text (wordAt c) := by
  have hskip := h.skip isWordChar
  unfold wordAt
  dsimp only
  split
  · exact ofParts_staysIn h.isIn hskip _ _
  · exact ofParts_staysIn h.isIn hskip _ _

/-- A lexeme of any kind stays in the text. -/
theorem lexemeAt_staysIn (h : c.Within text) (limit : Nat) : StaysIn text (lexemeAt limit c) := by
  unfold lexemeAt
  split
  · exact ofParts_staysIn h.isIn h _ _
  · split
    · exact ofParts_staysIn h.isIn (h.drop _) _ _
    · split
      · exact stringAt_staysIn h limit _
      · split
        · exact numberAt_staysIn h
        · split
          · exact wordAt_staysIn h
          · exact ofParts_staysIn h.isIn (h.drop 1) _ _

end

/-! ### Calls -/

variable {text : List Char} {s s' : Scanner}

/-- One call stays within the text, and what it gives is at a place in
it. -/
theorem next_staysIn {result : Except TokenError Token} (h : s.cursor.Within text)
    (hnext : s.next = (result, s')) :
    s'.cursor.Within text ∧ (∀ t, result = .ok t → t.position.IsIn text) ∧
      ∀ e, result = .error e → e.position.IsIn text := by
  have hskip := h.skip Text.isBlank
  have hlexeme := lexemeAt_staysIn hskip s.limit
  unfold next at hnext
  dsimp only at hnext
  generalize lexemeAt s.limit (s.cursor.skip Text.isBlank) = read at hlexeme hnext
  rcases read with ⟨e | l, c⟩
  · cases hnext
    refine ⟨hlexeme.cursor, by simp [Except.map], ?_⟩
    intro e' he'
    cases he'
    exact hlexeme.error e rfl
  · cases hnext
    refine ⟨hlexeme.cursor, ?_, by simp [Except.map]⟩
    intro t ht
    cases ht
    exact hskip.isIn

/-- The scanner after so many calls, whatever they gave. -/
def afterCalls (s : Scanner) : Nat → Scanner
  | 0 => s
  | n + 1 => s.next.2.afterCalls n

/-- The calls before and the calls after add up. -/
theorem afterCalls_add (s : Scanner) (k m : Nat) :
    s.afterCalls (k + m) = (s.afterCalls k).afterCalls m := by
  induction k generalizing s with
  | zero => rw [Nat.zero_add]; rfl
  | succ k ih => rw [Nat.succ_add]; exact ih s.next.2

/-- A scanner stays within its text through any number of calls. -/
theorem within_afterCalls (h : s.cursor.Within text) (n : Nat) :
    (s.afterCalls n).cursor.Within text := by
  induction n generalizing s with
  | zero => exact h
  | succ n ih => exact ih (next_staysIn h rfl).1

end Scanner

/-! ### The tokens of a source -/

/-- A token that the source gives before any error. The end is one of
them, and nothing comes behind it. -/
inductive TokenSource.Gives {σ : Type} [TokenSource σ] : σ → Token → Prop
  | here {s s' : σ} {t : Token} : TokenSource.next s = (.ok t, s') → Gives s t
  | later {s s' : σ} {t u : Token} :
      TokenSource.next s = (.ok u, s') → u.weight = 1 → Gives s' t → Gives s t

namespace Scanner

open TokenSource (Gives)

variable {text : List Char} {s s' : Scanner} {t u : Token}

/-- A token that a scanner gives is at a place in its text. -/
theorem isIn_of_gives (hgives : Gives s t) (h : s.cursor.Within text) : t.position.IsIn text := by
  induction hgives with
  | here hnext =>
    obtain ⟨-, hplace, -⟩ := next_staysIn h hnext
    exact hplace _ rfl
  | later hnext _ _ ih => exact ih (next_staysIn h hnext).1

/-- A call moves on to its token, and past it unless it is the end. -/
theorem offset_of_next (h : s.next = (.ok t, s')) :
    s.cursor.position.offset ≤ t.position.offset ∧
      (t.weight = 1 → t.position.offset < s'.cursor.position.offset) := by
  obtain ⟨hposition, hcases⟩ := next_eq_ok h
  have hskip := (s.cursor.passes_skip Text.isBlank).position_eq
  rw [hposition]
  constructor
  · rw [hskip, Position.offset_after]
    omega
  · intro hweight
    rcases hcases with ⟨-, hend⟩ | ⟨spelling, hpasses, hspells⟩
    · simp [Token.weight, hend] at hweight
    · have hpos := List.length_pos_iff.mpr hspells.ne_nil
      rw [hpasses.position_eq, Position.offset_after]
      omega

/-- A token that a scanner gives is not behind the scanner. -/
theorem offset_le_of_gives (h : Gives s t) : s.cursor.position.offset ≤ t.position.offset := by
  induction h with
  | here hnext => exact (offset_of_next hnext).1
  | later hnext hweight _ ih =>
    obtain ⟨hle, hlt⟩ := offset_of_next hnext
    have := hlt hweight
    omega

/-- A scanner gives one token at a place. -/
theorem eq_of_gives (ht : Gives s t) (hu : Gives s u) (h : u.position = t.position) : u = t := by
  induction ht with
  | here hnext =>
    cases hu with
    | here hnext' =>
      cases hnext.symm.trans hnext'
      rfl
    | later hnext' hweight hlater =>
      cases hnext.symm.trans hnext'
      -- A later token stands further on, so it is not at the same place.
      have hlt := (offset_of_next hnext).2 hweight
      have hle := offset_le_of_gives hlater
      rw [h] at hle
      omega
  | later hnext hweight hlater ih =>
    cases hu with
    | here hnext' =>
      cases hnext.symm.trans hnext'
      have hlt := (offset_of_next hnext).2 hweight
      have hle := offset_le_of_gives hlater
      rw [← h] at hle
      omega
    | later hnext' _ hlater' =>
      cases hnext.symm.trans hnext'
      exact ih hlater' h

/-- What a scanner gives later it gives. -/
theorem gives_of_next (hnext : s.next = (.ok t, s')) (h : Gives s' u) : Gives s u := by
  by_cases hweight : t.weight = 1
  · exact .later hnext hweight h
  · -- At the end there is no other token to come.
    have hend : t.weight = 0 := by
      have := t.weight_le_one
      omega
    have hstays : TokenSource.next s' = (.ok t, s') := next_of_end hnext hend
    cases h with
    | here hnext' =>
      cases hstays.symm.trans hnext'
      exact .here hnext
    | later hnext' hweight' _ =>
      cases hstays.symm.trans hnext'
      exact absurd hweight' hweight

end Scanner

end ScalarScript
