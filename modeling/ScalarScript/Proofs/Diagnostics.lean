import ScalarScript.Execution
import ScalarScript.Proofs.Run.Likeness
import ScalarScript.Proofs.Token.Places

/-!
# `ScalarScript.Proofs.Diagnostics`: the places that errors name

Every error of a text points into the text (`executeText_points_into`).
An error of the tokens is at a character of the text or at its end. An
error of reading is at a token, and where it says what it found it shows
the token at its place. An error of a run is at a token too, or it is one
of the two that have no place.

Parsers and runs of two sources that are alike have results that are
alike. Here the two sources are one and the same scanner: the likeness
`Scanner.places` says of its tokens that they are tokens of the text, and
that they are is what errors and trees then say of their places.
-/

set_option autoImplicit false

namespace ScalarScript

open TokenSource (Gives)

/-- How an error shows what it found, if it does. -/
def ParseError.found? : ParseError → Option String
  | .unexpectedToken _ found _ | .missingExpression found _ | .missingOperand _ found _ =>
    some found.display
  | _ => none

/-- Only two errors have no place: that there is no `main`, and that the
call budget is used up. -/
theorem RuntimeError.position?_eq_none {e : RuntimeError} (h : e.position? = none) :
    e = .noMainFunction ∨ ∃ function limit, e = .callDepthExceeded function limit := by
  cases e with
  | noMainFunction => exact .inl rfl
  | callDepthExceeded function limit => exact .inr ⟨function, limit, rfl⟩
  | _ => cases h

/-- What the place of a failure of a text says:

- `inside`: it is a character of the text or its end;
- `parse`: at the place of an error of reading stands a token, and where the
  error shows what it found, it shows that token;
- `runtime`: at the place of an error of a run stands a token;
- `placeless`: only two errors have no place. -/
structure Failure.PointsInto (text : String) (limit : Nat) (failure : Failure) : Prop where
  inside : ∀ p, failure.position? = some p → p.IsIn text.toList
  parse : ∀ e, failure = .parse e →
    (∃ t, Gives (Scanner.ofString text limit) t ∧ t.position = e.position) ∧
    ∀ t found, Gives (Scanner.ofString text limit) t → t.position = e.position →
      e.found? = some found → found = t.display
  runtime : ∀ e p, failure = .runtime e → e.position? = some p →
    ∃ t, Gives (Scanner.ofString text limit) t ∧ t.position = p
  placeless : failure.position? = none → failure = .runtime .noMainFunction ∨
    ∃ function limit, failure = .runtime (.callDepthExceeded function limit)

namespace Failure

variable {text : String} {limit : Nat}

/-- An error of the tokens points into the text, since the scanner never
leaves it. -/
theorem pointsInto_of_token {e : TokenError} (h : e.position.IsIn text.toList) :
    PointsInto text limit (.token e) where
  inside := by
    intro p hp
    cases hp
    exact h
  parse := by simp
  runtime := by simp
  placeless := by simp [position?]

/-- There is one token at the place, so any token there is the one that the
error shows. -/
theorem pointsInto_of_parse {e : ParseError} {t : Token}
    (hgives : Gives (Scanner.ofString text limit) t) (ht : t.position = e.position)
    (hfound : ∀ found, e.found? = some found → found = t.display) :
    PointsInto text limit (.parse e) where
  inside := by
    intro p hp
    cases hp
    exact ht ▸ Scanner.isIn_of_gives hgives (Cursor.within_ofString text)
  parse := by
    intro e' he
    cases he
    refine ⟨⟨t, hgives, ht⟩, ?_⟩
    intro u found hu hplaced hshown
    rw [Scanner.eq_of_gives hgives hu (hplaced.trans ht.symm)]
    exact hfound found hshown
  runtime := by simp
  placeless := by simp [position?]

/-- An error of a run points into the text if its place is that of a
token. -/
theorem pointsInto_of_runtime {e : RuntimeError}
    (htoken : ∀ p, e.position? = some p →
      ∃ t, Gives (Scanner.ofString text limit) t ∧ t.position = p) :
    PointsInto text limit (.runtime e) where
  inside := by
    intro p hp
    obtain ⟨t, hgives, rfl⟩ := htoken p hp
    exact Scanner.isIn_of_gives hgives (Cursor.within_ofString text)
  parse := by simp
  runtime := by
    intro e' p he hp
    cases he
    exact htoken p hp
  placeless := by
    intro hnone
    rcases RuntimeError.position?_eq_none hnone with rfl | ⟨function, limit, rfl⟩
    · exact .inl rfl
    · exact .inr ⟨function, limit, rfl⟩

end Failure

/-! ### A text and its tokens -/

/-- A scanner of the text and itself: its tokens are given by the text, and
its errors are at places of the text. -/
def Scanner.places (text : String) (limit : Nat) : TokenSource.Likeness Scanner Scanner where
  source := fun s s' => s' = s ∧ s.cursor.Within text.toList ∧
    ∀ t, Gives s t → Gives (Scanner.ofString text limit) t
  token := fun t t' => t' = t ∧ Gives (Scanner.ofString text limit) t
  fault := fun e e' => e' = e ∧ e.position.IsIn text.toList
  lost := fun _ => False
  lexeme_eq := fun h => by rw [h.1]
  next := by
    rintro s _ t rest ⟨rfl, hwithin, hgives⟩ hnext
    have hrest : ∀ u, Gives rest u → Gives (Scanner.ofString text limit) u :=
      fun u hu => hgives u (gives_of_next hnext hu)
    exact ⟨t, rest, hnext, ⟨rfl, hgives t (.here hnext)⟩, rfl, (next_staysIn hwithin hnext).1, hrest⟩
  fail := by
    rintro s _ e rest ⟨rfl, hwithin, -⟩ hnext
    obtain ⟨-, -, herror⟩ := next_staysIn hwithin hnext
    exact .inr ⟨e, rest, hnext, rfl, herror e rfl⟩

section

variable {text : String} {limit : Nat}

/-- A place of a tree of the text is the place of a token. -/
theorem Scanner.gives_of_place {p p' : Position} (h : (Scanner.places text limit).Place p p') :
    ∃ t, Gives (Scanner.ofString text limit) t ∧ t.position = p := by
  obtain ⟨l, -, hgives⟩ := h
  exact ⟨⟨l, p⟩, hgives, rfl⟩

/-- An error of reading that is alike to itself, up to the places of
tokens, points into the text. -/
theorem ParseError.Alike.pointsInto {e e' : ParseError}
    (h : e.Alike (Scanner.places text limit) e') :
    (Failure.ofParseError e).PointsInto text limit := by
  cases h with
  | token herror => exact Failure.pointsInto_of_token herror.2
  | @unexpectedToken _ l x _ ht | @missingExpression l x _ ht | @missingOperand _ l x _ ht =>
    -- The lexeme and the place come from one token.
    refine Failure.pointsInto_of_parse ht.2 rfl ?_
    intro found hfound
    cases hfound
    rfl
  | missingBody hx | missingCondition hx | duplicateFunction hx | duplicateParameter hx
  | controlOutsideLoop hx =>
    obtain ⟨t, hgives, hposition⟩ := Scanner.gives_of_place hx
    exact Failure.pointsInto_of_parse hgives hposition (by simp [found?])

/-- Reading a text twice gives the same result, with places that are
places of tokens. -/
theorem Program.ofString_places (text : String) (limit : Nat) :
    Program.ResultsAlike (Scanner.places text limit) (Program.ofString text limit)
      (Program.ofString text limit) := by
  have hsource : (Scanner.places text limit).source (Scanner.ofString text limit)
      (Scanner.ofString text limit) :=
    ⟨rfl, Cursor.within_ofString text, fun t ht => ht⟩
  exact Program.ofSource_alike hsource

/-- An error of reading a text points into the text. -/
theorem Program.pointsInto_of_ofString {e : ParseError}
    (h : Program.ofString text limit = .error e) :
    (Failure.ofParseError e).PointsInto text limit := by
  have halike := Program.ofString_places text limit
  rw [h] at halike
  cases halike with
  | error he => exact he.pointsInto
  | lost he => exact he.elim

/-- An error of running a text points into the text. -/
theorem Program.pointsInto_of_run {program : Program} {limits : Limits} {fuel : Nat}
    {start after : Terminal} {e : RuntimeError} (hprogram : Program.ofString text limit = .ok program)
    (h : program.run limits fuel start = .error e after) :
    (Failure.runtime e).PointsInto text limit := by
  have halike := Program.ofString_places text limit
  rw [hprogram] at halike
  cases halike with
  | ok halike =>
    -- The run beside itself: its errors have the places of the tree.
    have hagrees := halike.run_agrees (L := .atOneTerminal (Scanner.places text limit).Place
      fun _ => False) limits fuel start start rfl
    rw [h] at hagrees
    cases hagrees with
    | lost he => exact he.elim
    | error he _ =>
      refine Failure.pointsInto_of_runtime ?_
      intro p hp
      obtain ⟨p', -, hplace⟩ := exists_of_optionRel (hp ▸ he.position?)
      exact Scanner.gives_of_place hplace

end

/-! ### Whole texts -/

/-- A text fails because it cannot be read, or because its program
fails. -/
theorem executeText_eq_error {text : String} {limits : Limits} {fuel : Nat}
    {start after : Terminal} {failure : Failure}
    (h : executeText text limits fuel start = .error failure after) :
    (∃ e, Program.ofString text limits.stringLength = .error e ∧ failure = .ofParseError e) ∨
    ∃ program e, Program.ofString text limits.stringLength = .ok program ∧
      program.run limits fuel start = .error e after ∧ failure = .runtime e := by
  unfold executeText at h
  cases hprogram : Program.ofString text limits.stringLength with
  | error e =>
    rw [hprogram] at h
    cases h
    exact .inl ⟨e, rfl, rfl⟩
  | ok program =>
    rw [hprogram] at h
    dsimp only [Run.asFailure] at h
    cases hrun : program.run limits fuel start with
    | ok v t =>
      rw [hrun] at h
      cases h
    | unfinished =>
      rw [hrun] at h
      cases h
    | error e t =>
      rw [hrun] at h
      cases h
      exact .inr ⟨program, e, rfl, hrun, rfl⟩

/-- Diagnostics point into the text. After any calls of the scanner, an
error of a token is at a character of the text or at its end. So is every
failure of a text to be read or to be run that has a place, and what stands
there is as `Failure.PointsInto` says. -/
theorem executeText_points_into (text : String) (limits : Limits) :
    (∀ n e after, ((Scanner.ofString text limits.stringLength).afterCalls n).next =
      (.error e, after) → e.position.IsIn text.toList) ∧
    ∀ fuel start failure after, executeText text limits fuel start = .error failure after →
      failure.PointsInto text limits.stringLength := by
  constructor
  · intro n e after hnext
    have hwithin : (Scanner.ofString text limits.stringLength).cursor.Within text.toList :=
      Cursor.within_ofString text
    obtain ⟨-, -, herror⟩ := Scanner.next_staysIn (Scanner.within_afterCalls hwithin n) hnext
    exact herror e rfl
  · intro fuel start failure after h
    rcases executeText_eq_error h with ⟨e, hread, rfl⟩ | ⟨program, e, hprogram, hrun, rfl⟩
    · exact Program.pointsInto_of_ofString hread
    · exact Program.pointsInto_of_run hprogram hrun

/-- A mark on the second line, where the word `returns` was expected. -/
theorem executeText_points_into_second_line :
    let e : ParseError :=
      .unexpectedToken [.symbol .returnsWord] (.symbol .semicolon) ⟨2, 1, 8⟩
    executeText "main()\n;" ⟨1, 0⟩ 0 (.scripted []) = .error (.parse e) (.scripted []) ∧
      ∃ t, Gives (Scanner.ofString "main()\n;" 0) t ∧ t.position = ⟨2, 1, 8⟩ ∧
        t.display = (Lexeme.symbol .semicolon).display := by
  intro e
  have hfails : executeText "main()\n;" ⟨1, 0⟩ 0 (.scripted []) =
      .error (.parse e) (.scripted []) := by with_unfolding_all rfl
  obtain ⟨-, hpoints⟩ := executeText_points_into "main()\n;" ⟨1, 0⟩
  obtain ⟨⟨t, hgives, ht⟩, hshown⟩ := (hpoints 0 _ _ _ hfails).parse e rfl
  exact ⟨hfails, t, hgives, ht, (hshown t _ hgives ht rfl).symm⟩

end ScalarScript
