import ScalarScript.Proofs.Parser.Termination
import ScalarScript.Proofs.Token.Progress

/-!
# `ScalarScript.Proofs.Consistency`: checks that no text makes fail

A token is built from a kind and a value, and a value that does not fit
the kind is refused. The parser takes the value out again by the kind, and
refuses a value that it cannot use there. A fraction is read as a double,
and digits that denote none are refused. None of these refusals is for the
author of a text: they would be faults of the scanner or of the parser.

They do not happen. Each reader of the scanner has one lemma that says
which errors it can give, and from which character on
(`TokenError.ComesFrom`). A parser passes on what its scanner gives and no
other error of a token; its current token is always one that a call of the
scanner gave, also when it is asked for a program again after a failure
(`Parser.OfCalls`). `internal_errors_unreachable` puts this together.
-/

set_option autoImplicit false

namespace ScalarScript

/-! ### Values that fit -/

/-- The values that a token of a kind can have. -/
inductive Kind.Fits : Kind → Option TokenValue → Prop
  | symbol (s : Symbol) : Fits (.symbol s) none
  | int (n : Int64) : Fits .number (some (.int n))
  | float (x : Float) : Fits .number (some (.float x))
  | string (s : String) : Fits .string (some (.text s))
  | identifier (s : String) : Fits .identifier (some (.text s))
  | unknown (c : Char) : Fits .unknown (some (.char c))
  | endOfText : Fits .endOfText none

/-- The value of a lexeme fits its kind. -/
theorem Lexeme.fits (l : Lexeme) : l.kind.Fits l.value := by
  cases l <;> constructor

/-- A value that fits the kind is not refused, and no other is taken. -/
theorem Lexeme.ofParts_eq_ok_iff (kind : Kind) (value : Option TokenValue) (p : Position) :
    (∃ l, Lexeme.ofParts kind value p = .ok l) ↔ kind.Fits value := by
  constructor
  · intro h
    obtain ⟨l, hl⟩ := h
    cases kind with
    | symbol s | endOfText =>
      cases value with
      | none => constructor
      | some v => cases hl
    | number | string | identifier | unknown =>
      rcases value with _ | ⟨_ | _ | _ | _⟩ <;> first | constructor | cases hl
  · intro h
    cases h <;> exact ⟨_, rfl⟩

/-- A lexeme is never refused where the value fits the kind. -/
theorem Lexeme.ofParts_ne_error {kind : Kind} {value : Option TokenValue} (h : kind.Fits value)
    (p : Position) (e : TokenError) : Lexeme.ofParts kind value p ≠ .error e := by
  obtain ⟨l, hl⟩ := (Lexeme.ofParts_eq_ok_iff kind value p).mpr h
  rw [hl]
  simp

/-! ### Errors of the readers -/

/-- What the first character of a token has to be for this error: a quote
for an error of a string, a digit for one of a number. A fraction that is
no double and a value that does not fit come from no character. -/
def TokenError.ComesFrom (first : Char) : TokenError → Prop
  | .unterminatedString _ | .stringTooLong _ _ => Scanner.isQuote first = true
  | .malformedNumber fault _ => first.isDigit = true ∧ ∀ digits, fault ≠ .invalidFraction digits
  | .inconsistentToken _ _ _ => False

namespace Scanner

section

variable {first : Char} {e : TokenError}

/-- The body of a string fails only as strings do. -/
theorem stringBody_comesFrom (hfirst : isQuote first = true) (opening : Position)
    (limit : Nat) (quote : Char) (room : Nat) (cs : List Char) (p : Position)
    (h : (stringBody opening limit quote room cs p).1 = .error e) : e.ComesFrom first := by
  -- A string that starts well fails as its rest does.
  have hprepend : ∀ ds (r : Except TokenError (List Char) × Cursor),
      (prepend ds r).1 = .error e → r.1 = .error e := by
    intro ds r hr
    rcases r with ⟨e' | ds', c⟩
    · exact hr
    · cases hr
  fun_induction stringBody opening limit quote room cs p with
  | case1 | case3 | case4 =>
    cases h
    exact hfirst
  | case2 => cases h
  | case5 _ _ _ _ _ _ ih => exact ih (hprepend _ _ h)
  | case6 _ _ _ _ _ _ _ ih => exact ih (hprepend _ _ h)

/-- A string fails only as strings do. -/
theorem stringAt_comesFrom (hfirst : isQuote first = true) (limit : Nat) (c : Cursor)
    (h : (stringAt limit first c).1 = .error e) : e.ComesFrom first := by
  unfold stringAt at h
  dsimp only at h
  cases hbody : (stringBody c.position limit first limit (c.drop 1).rest (c.drop 1).position).1 with
  | error e' =>
    rw [hbody] at h
    cases h
    exact stringBody_comesFrom hfirst _ _ _ _ _ _ hbody
  | ok cs =>
    rw [hbody] at h
    exact absurd h (Lexeme.ofParts_ne_error (.string _) c.position e)

/-- What stands behind a number fails only as numbers do. -/
theorem closeNumber_comesFrom (hfirst : first.isDigit = true) {value : TokenValue}
    (hvalue : Kind.number.Fits (some value)) (start : Position) (c : Cursor)
    (h : (closeNumber start value c).1 = .error e) : e.ComesFrom first := by
  unfold closeNumber at h
  split at h
  · exact absurd h (Lexeme.ofParts_ne_error hvalue _ _)
  · split at h
    · cases h
      exact ⟨hfirst, by simp⟩
    · exact absurd h (Lexeme.ofParts_ne_error hvalue _ _)

/-- A fraction fails only as numbers do. -/
theorem fractionAt_comesFrom (hfirst : first.isDigit = true) (start : Position) (n : Int64)
    (c : Cursor) (h : (fractionAt start n c).1 = .error e) : e.ComesFrom first := by
  rw [fractionAt_eq] at h
  dsimp only at h
  split at h
  · cases h
    exact ⟨hfirst, by simp⟩
  · exact closeNumber_comesFrom hfirst (.float _) _ _ h

/-- A number fails only as numbers do. -/
theorem numberAt_comesFrom (hfirst : first.isDigit = true) (c : Cursor)
    (h : (numberAt c).1 = .error e) : e.ComesFrom first := by
  unfold numberAt at h
  dsimp only at h
  split at h
  · cases h
    exact ⟨hfirst, by simp⟩
  · split at h
    · cases h
      exact ⟨hfirst, by simp⟩
    · split at h
      · exact fractionAt_comesFrom hfirst _ _ _ h
      · exact closeNumber_comesFrom hfirst (.int _) _ _ h

/-- A word never fails. -/
theorem wordAt_ne_error (c : Cursor) : (wordAt c).1 ≠ .error e := by
  unfold wordAt
  dsimp only
  split
  · exact Lexeme.ofParts_ne_error (.symbol _) _ _
  · exact Lexeme.ofParts_ne_error (.identifier _) _ _

/-- The character at which a lexeme starts decides which error it can
end in. -/
theorem lexemeAt_comesFrom {limit : Nat} {c : Cursor} (h : (lexemeAt limit c).1 = .error e) :
    ∃ first more, c.rest = first :: more ∧ e.ComesFrom first := by
  unfold lexemeAt at h
  split at h
  · exact absurd h (Lexeme.ofParts_ne_error .endOfText c.position e)
  · rename_i first more hrest
    refine ⟨first, more, hrest, ?_⟩
    split at h
    · exact absurd h (Lexeme.ofParts_ne_error (.symbol _) c.position e)
    · split at h
      · exact stringAt_comesFrom ‹_› _ _ h
      · split at h
        · exact numberAt_comesFrom ‹_› _ h
        · split at h
          · exact absurd h (wordAt_ne_error c)
          · exact absurd h (Lexeme.ofParts_ne_error (.unknown _) c.position e)

end

/-! ### Errors of the calls -/

/-- The error is of a token that starts at the cursor, behind blanks. -/
def FailsFrom (c : Cursor) (e : TokenError) : Prop :=
  ∃ gap first more, c.rest = gap ++ first :: more ∧ (∀ d ∈ gap, Text.isBlank d = true) ∧
    Text.isBlank first = false ∧ e.ComesFrom first

/-- A call of the scanner that fails does so at a character from which the
error comes. -/
theorem next_failsFrom {s : Scanner} {e : TokenError} (h : s.next.1 = .error e) :
    FailsFrom s.cursor e := by
  have hlexeme : (lexemeAt s.limit (s.cursor.skip Text.isBlank)).1 = .error e := by
    unfold next at h
    dsimp only at h
    generalize lexemeAt s.limit (s.cursor.skip Text.isBlank) = read at h ⊢
    rcases read with ⟨e' | l, c⟩
    · cases h
      rfl
    · cases h
  obtain ⟨first, more, hrest, hfrom⟩ := lexemeAt_comesFrom hlexeme
  refine ⟨s.cursor.run Text.isBlank, first, more, ?_, ?_, ?_, hfrom⟩
  · rw [← hrest, Cursor.run_append_skip]
  · intro d hd
    exact Cursor.mem_run hd
  · exact Cursor.not_of_mem_head?_skip (by rw [hrest]; rfl)

/-- A scanner that gives a token with every call has a list of tokens. -/
theorem exists_tokens {s : Scanner} (h : ∀ k, ∃ t, s.call k = .ok t) :
    ∃ ts, s.tokens = .ok ts := by
  fun_induction tokens s with
  | case1 s e rest hnext =>
    obtain ⟨t, ht⟩ := h 0
    cases (congrArg Prod.fst hnext).symm.trans ht
  | case2 s t rest hnext hend => exact ⟨[t], rfl⟩
  | case3 s t rest hnext hend ih =>
    have hrest : s.next.2 = rest := congrArg Prod.snd hnext
    -- The calls of the rest are those of `s` from the second on.
    obtain ⟨ts, hts⟩ := ih fun k => hrest ▸ h (k + 1)
    rw [hts]
    exact ⟨t :: ts, rfl⟩

end Scanner

/-! ### Parsers -/

/-- The parser holds a token that a call of the scanner `s` gave, and goes
on with `s` after some calls. -/
structure Parser.OfCalls (s : Scanner) (p : Parser Scanner) : Prop where
  current : ∃ k, s.call k = .ok p.current
  source : ∃ k, p.source = s.afterCalls k

namespace Parser.OfCalls

variable {s : Scanner} {p q : Parser Scanner}

/-- The next call of the scanner in a parser is a further call of `s`. -/
theorem next {result : Except TokenError Token} {rest : Scanner} (h : p.OfCalls s)
    (hnext : TokenSource.next p.source = (result, rest)) :
    (∃ k, s.call k = result) ∧ ∃ k, rest = s.afterCalls k := by
  obtain ⟨k, hk⟩ := h.source
  obtain ⟨hcall, hrest⟩ := Scanner.call_of_next hk hnext
  exact ⟨⟨k, hcall⟩, k + 1, hrest⟩

/-- A parser that moves on still stands in the calls of its scanner. -/
theorem moves (h : p.OfCalls s) (hmoves : p.Moves q) : q.OfCalls s := by
  obtain ⟨t, rest, hnext, rfl⟩ := hmoves
  obtain ⟨hcurrent, hsource⟩ := h.next hnext
  exact ⟨hcurrent, hsource⟩

/-- A parser that reads tokens still stands in the calls of its scanner. -/
theorem reads {ts : List Token} (h : p.OfCalls s) (hreads : p.Reads ts q) : q.OfCalls s := by
  induction ts generalizing p with
  | nil =>
    rw [reads_nil] at hreads
    exact hreads ▸ h
  | cons t ts ih =>
    obtain ⟨-, -, r, hmoves, hrest⟩ := hreads
    exact ih (h.moves hmoves) hrest

/-- A parser that takes tokens or meets errors on the way still stands in
the calls of its scanner. -/
theorem consumes {k : Nat} (h : p.OfCalls s) (hconsumes : p.Consumes k q) : q.OfCalls s := by
  obtain ⟨ts, -, hreads⟩ := hconsumes
  have hloops : (p.withLoops q.loops).OfCalls s := ⟨h.current, h.source⟩
  exact hloops.reads hreads

/-- Whatever comes of a program, the parser behind it still holds a token
that was given. -/
theorem program (h : p.OfCalls s) : p.program.2.OfCalls s := by
  rcases p.program_leaves with (hq | ⟨r, e, hr, hcurrent, hnext⟩) | ⟨r, hr, hmoves⟩
  · exact h.consumes hq
  · have hofCalls := h.consumes hr
    obtain ⟨-, hsource⟩ := hofCalls.next hnext
    exact ⟨hcurrent ▸ hofCalls.current, hsource⟩
  · exact (h.consumes hr).moves hmoves

/-- A parser that has read for programs any number of times still stands
in the calls of its scanner. -/
theorem afterPrograms (h : p.OfCalls s) (n : Nat) : (p.afterPrograms n).OfCalls s := by
  induction n generalizing p with
  | zero => exact h
  | succ n ih => exact ih h.program

end Parser.OfCalls

/-- A scanner beside itself: its tokens and its errors are those of the
calls of `s`. -/
def Scanner.ofCalls (s : Scanner) : TokenSource.Likeness Scanner Scanner where
  source := fun x x' => x' = x ∧ ∃ k, x = s.afterCalls k
  token := fun t t' => t' = t ∧ ∃ k, s.call k = .ok t
  fault := fun e e' => e' = e ∧ ∃ k, s.call k = .error e
  lost := fun _ => False
  lexeme_eq := fun h => by rw [h.1]
  next := by
    intro x x' t rest hsource hnext
    obtain ⟨rfl, k, hk⟩ := hsource
    obtain ⟨hcall, hrest⟩ := call_of_next hk hnext
    exact ⟨t, rest, hnext, ⟨rfl, k, hcall⟩, rfl, k + 1, hrest⟩
  fail := by
    intro x x' e rest hsource hnext
    obtain ⟨rfl, k, hk⟩ := hsource
    exact .inr ⟨e, rest, hnext, rfl, k, (call_of_next hk hnext).1⟩

/-- An error of a token that a parser gives is one that its scanner gave. -/
theorem Parser.OfCalls.call_eq_error {s : Scanner} {p : Parser Scanner} (h : p.OfCalls s)
    {e : TokenError} (herror : p.program.1 = .error (.token e)) : ∃ k, s.call k = .error e := by
  have hmatches : p.Matches s.ofCalls p := ⟨⟨rfl, h.current⟩, ⟨rfl, h.source⟩, rfl⟩
  have halike := Parser.program_alike hmatches
  rw [herror] at halike
  cases halike with
  | error he =>
    cases he with
    | token hfault => exact hfault.2
  | lost hlost => exact hlost.elim

/-- A parser stands in the calls of its scanner from the start. -/
theorem Parser.ofCalls_of_start {s : Scanner} {p : Parser Scanner} (h : Parser.start s = .ok p) :
    p.OfCalls s := by
  unfold Parser.start at h
  split at h
  · rename_i t rest hnext
    cases h
    exact ⟨⟨0, congrArg Prod.fst hnext⟩, 1, (congrArg Prod.snd hnext).symm⟩
  · cases h

/-- An attempt that fails with an error of the tokens fails with one that
a call of the scanner gives. -/
theorem Program.call_of_attempt {text : String} {limit n : Nat} {e : TokenError}
    (h : Program.attempt text limit n = .error (.token e)) :
    ∃ k, (Scanner.ofString text limit).call k = .error e := by
  unfold Program.attempt at h
  split at h
  · rename_i p hstart
    exact ((Parser.ofCalls_of_start hstart).afterPrograms n).call_eq_error h
  · -- Not even the first token could be read.
    rename_i e' hstart
    cases h
    unfold Parser.start at hstart
    split at hstart
    · cases hstart
    · rename_i hnext
      cases hstart
      exact ⟨0, congrArg Prod.fst hnext⟩

/-! ### Whole texts -/

/-- No text reaches the errors that guard the scanner and the parser against
themselves. Whatever calls of the scanner came before, a token has a value
that fits its kind, and an error is of a token that starts with a quote, if
it is an error of a string, or with a digit, if it is one of a number;
there are no others. Whatever programs a parser has been asked for before,
its current token is one that a call gave, and so is every error of a token
that it reports. A text without quotes and digits can always be split. -/
theorem internal_errors_unreachable (text : String) (limit : Nat) :
    let s := Scanner.ofString text limit
    (∀ k t, s.call k = .ok t → t.kind.Fits t.lexeme.value) ∧
    (∀ k e, s.call k = .error e → Scanner.FailsFrom (s.afterCalls k).cursor e) ∧
    (∀ p n, Parser.start s = .ok p →
      (p.afterPrograms n).current.kind.Fits (p.afterPrograms n).current.lexeme.value ∧
        ∃ k, s.call k = .ok (p.afterPrograms n).current) ∧
    (∀ n e, Program.attempt text limit n = .error (.token e) →
      ∃ k, s.call k = .error e ∧ Scanner.FailsFrom (s.afterCalls k).cursor e) ∧
    ((∀ c ∈ text.toList, Scanner.isQuote c = false ∧ c.isDigit = false) →
      (∀ k, ∃ t, s.call k = .ok t) ∧ ∃ ts, s.tokens = .ok ts) := by
  intro s
  have hfails : ∀ k e, s.call k = .error e → Scanner.FailsFrom (s.afterCalls k).cursor e :=
    fun k e => Scanner.next_failsFrom
  refine ⟨fun k t _ => t.lexeme.fits, hfails, ?_, ?_, ?_⟩
  · intro p n hstart
    have hofCalls := (Parser.ofCalls_of_start hstart).afterPrograms n
    exact ⟨Lexeme.fits _, hofCalls.current⟩
  · intro n e hattempt
    obtain ⟨k, hk⟩ := Program.call_of_attempt hattempt
    exact ⟨k, hk, hfails k e hk⟩
  · intro hplain
    have hcalls : ∀ k, ∃ t, s.call k = .ok t := by
      intro k
      cases hcall : s.call k with
      | ok t => exact ⟨t, rfl⟩
      | error e =>
        -- The token in error starts with a character of the text.
        obtain ⟨gap, first, more, hrest, -, -, hfrom⟩ := hfails k e hcall
        have hwithin : s.cursor.Within text.toList := Cursor.within_ofString text
        obtain ⟨before, htext, -⟩ := Scanner.within_afterCalls hwithin k
        obtain ⟨hquote, hdigit⟩ := hplain first (by rw [htext, hrest]; simp)
        cases e with
        | unterminatedString _ | stringTooLong _ _ =>
          cases hquote.symm.trans hfrom
        | malformedNumber _ _ =>
          cases hdigit.symm.trans hfrom.1
        | inconsistentToken _ _ _ => exact hfrom.elim
    exact ⟨hcalls, Scanner.exists_tokens hcalls⟩

/-- The error that a parser gives for a string without an end is of a token
that starts with a quote. A text with a name alone is split. -/
theorem internal_errors_unreachable_open_string :
    let s := Scanner.ofString "f '" 3
    let e : TokenError := .unterminatedString ⟨1, 3, 3⟩
    Program.attempt "f '" 3 0 = .error (.token e) ∧
      (∃ k, s.call k = .error e ∧ Scanner.FailsFrom (s.afterCalls k).cursor e) ∧
      ∃ ts, (Scanner.ofString "f" 3).tokens = .ok ts := by
  intro s e
  have hattempt : Program.attempt "f '" 3 0 = .error (.token e) := by with_unfolding_all rfl
  obtain ⟨-, -, -, herror, -⟩ := internal_errors_unreachable "f '" 3
  obtain ⟨-, -, -, -, hplain⟩ := internal_errors_unreachable "f" 3
  exact ⟨hattempt, herror 0 e hattempt, (hplain (by simp [Scanner.isQuote, Char.isDigit])).2⟩

end ScalarScript
