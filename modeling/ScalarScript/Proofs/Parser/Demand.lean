import ScalarScript.Proofs.Parser.Program
import ScalarScript.Proofs.Parser.Simulation
import ScalarScript.Proofs.Token.Segmentation

/-!
# `ScalarScript.Proofs.Parser.Demand`: tokens when they are needed

A parser takes each token from its source when it needs it. It could as
well be given the list of all tokens, with the same result
(`Program.ofString_eq_of_tokens`), since the list simulates the scanner.

If the text has a token in error, there is no list. Then the parser comes
to this error, or it fails before. It does not look past the tokens in
front of the error, so what it says in the second case it says of every
source that begins with them; and it cannot succeed, since the end of the
text is not among them. `Program.ofString_on_demand` is the theorem.
-/

set_option autoImplicit false

namespace ScalarScript

/-! ### The tokens in front of an error -/

namespace TokenSource

variable {σ σ' : Type} [TokenSource σ] [TokenSource σ']

/-- `Yields s ts r`: the source `s` gives the tokens `ts` in turn, none of
which is the end, and is `r` behind them. -/
inductive Yields : σ → List Token → σ → Prop
  | nil {s : σ} : Yields s [] s
  | cons {s s' r : σ} {t : Token} {ts : List Token} :
      TokenSource.next s = (.ok t, s') → t.weight = 1 → Yields s' ts r → Yields s (t :: ts) r

/-- The tokens of the source begin with `ts`. -/
def Begins (s : σ) (ts : List Token) : Prop :=
  ∃ r, Yields s ts r

/-- The source gives the tokens `ts`, and then the error. -/
def FailsAfter (s : σ) (ts : List Token) (e : TokenError) : Prop :=
  ∃ r rest, Yields s ts r ∧ TokenSource.next r = (.error e, rest)

section

variable {s rest : σ} {s' : σ'} {t : Token} {ts : List Token} {e e' : TokenError}

/-- A token that comes before the error is the first of those in front of
it. -/
theorem FailsAfter.of_next_ok (h : FailsAfter s ts e) (hnext : TokenSource.next s = (.ok t, rest)) :
    ∃ us, ts = t :: us ∧ t.weight = 1 ∧ FailsAfter rest us e := by
  obtain ⟨r, rest', hyields, hfail⟩ := h
  cases hyields with
  | nil => cases hnext.symm.trans hfail
  | cons hfirst hweight hyields =>
    cases hnext.symm.trans hfirst
    exact ⟨_, rfl, hweight, r, rest', hyields, hfail⟩

/-- The error that comes first is the one. -/
theorem FailsAfter.of_next_error (h : FailsAfter s ts e)
    (hnext : TokenSource.next s = (.error e', rest)) : e' = e := by
  obtain ⟨r, rest', hyields, hfail⟩ := h
  cases hyields with
  | nil =>
    cases hnext.symm.trans hfail
    rfl
  | cons hfirst _ _ => cases hnext.symm.trans hfirst

/-- A source that begins with some tokens gives the first, and the rest
begins with the others. -/
theorem Begins.of_cons (h : Begins s (t :: ts)) :
    ∃ rest, TokenSource.next s = (.ok t, rest) ∧ Begins rest ts := by
  obtain ⟨r, hyields⟩ := h
  cases hyields with
  | cons hfirst _ hyields => exact ⟨_, hfirst, r, hyields⟩

end

/-- A source that fails and one that begins with the tokens in front of
its error. -/
def Parting (e : TokenError) (s : σ) (s' : σ') : Prop :=
  ∃ ts, FailsAfter s ts e ∧ Begins s' ts

/-- Of two sources that part at an error, the second gives every token
that the first gives. -/
theorem Parting.next {s rest : σ} {s' : σ'} {t : Token} {e : TokenError} (h : Parting e s s')
    (hnext : TokenSource.next s = (.ok t, rest)) :
    ∃ rest', TokenSource.next s' = (.ok t, rest') ∧ Parting e rest rest' := by
  obtain ⟨ts, hfails, hbegins⟩ := h
  obtain ⟨us, rfl, -, hfails⟩ := hfails.of_next_ok hnext
  obtain ⟨rest', hnext', hbegins⟩ := hbegins.of_cons
  exact ⟨rest', hnext', us, hfails, hbegins⟩

/-- Of two sources that part at an error, the first fails with this error
only. -/
theorem Parting.fail {s rest : σ} {s' : σ'} {e e' : TokenError} (h : Parting e s s')
    (hnext : TokenSource.next s = (.error e', rest)) : e' = e := by
  obtain ⟨ts, hfails, -⟩ := h
  exact hfails.of_next_error hnext

/-- Two sources that part at an error are alike before it, and they have
no error of a token in common. -/
def parting (σ σ' : Type) [TokenSource σ] [TokenSource σ'] (e : TokenError) : Likeness σ σ' :=
  .ofEqual (Parting e) (fun _ _ => False) (fun e' => e' = e) Parting.next fun h hnext =>
    .inl (h.fail hnext)

end TokenSource

open TokenSource (Begins FailsAfter)

/-! ### A source that fails -/

section

variable {σ : Type} [TokenSource σ] {ts : List Token} {e : TokenError}

/-- A parser that the end cannot come to: its token is not the end, and
its source fails before the end. -/
def Parser.Doomed (p : Parser σ) (e : TokenError) : Prop :=
  p.current.weight = 1 ∧ ∃ ts, FailsAfter p.source ts e

/-- A parser whose source has to fail still has one after it has read
tokens. -/
theorem Parser.Doomed.reads {p q : Parser σ} {us : List Token} (h : p.Doomed e)
    (hreads : p.Reads us q) : q.Doomed e := by
  induction us generalizing p with
  | nil =>
    cases hreads
    exact h
  | cons u us ih =>
    obtain ⟨-, -, r, ⟨t, rest, hnext, rfl⟩, hreads⟩ := hreads
    obtain ⟨-, ts, hfails⟩ := h
    obtain ⟨vs, -, hweight, hfails⟩ := hfails.of_next_ok hnext
    exact ih ⟨hweight, vs, hfails⟩ hreads

/-- A source that fails spells no program. -/
theorem Program.ofSource_ne_ok {s : σ} (h : FailsAfter s ts e) (program : Program) :
    Program.ofSource s ≠ .ok program := by
  unfold Program.ofSource
  cases hstart : Parser.start s with
  | error e' => simp
  | ok p =>
    intro hprogram
    unfold Parser.start at hstart
    split at hstart
    · rename_i t rest hnext
      cases hstart
      obtain ⟨us, -, hweight, hfails⟩ := h.of_next_ok hnext
      have hdoomed : (⟨t, rest, 0⟩ : Parser σ).Doomed e := ⟨hweight, us, hfails⟩
      obtain ⟨vs, q, _, hreads, hend, -⟩ := (Parser.program_iff _ _).mp hprogram
      -- A program is read up to the end of the text, and there is none.
      have hq := (hdoomed.reads (p := Parser.outsideLoops _) hreads).1
      simp [Token.weight, hend] at hq
    · cases hstart

/-- A source that fails ends in its error, or in an error that is not one
of a token and that every source with the same beginning ends in. -/
theorem Program.ofSource_of_failsAfter {s : σ} (h : FailsAfter s ts e) :
    Program.ofSource s = .error (.token e) ∨
    ∃ fault, (∀ e', fault ≠ .token e') ∧ Program.ofSource s = .error fault ∧
      ∀ (σ' : Type) [TokenSource σ'] (s' : σ'), Begins s' ts →
        Program.ofSource s' = .error fault := by
  cases hs : Program.ofSource s with
  | ok program => exact absurd hs (Program.ofSource_ne_ok h program)
  | error fault =>
    by_cases hfault : fault = .token e
    · exact .inl (by rw [hfault])
    · -- The error is not lost, so all sources with this beginning have one that is alike.
      have halike : ∀ (σ' : Type) [TokenSource σ'] (s' : σ'), Begins s' ts →
          ∃ fault', Program.ofSource s' = .error fault' ∧
            fault.Alike (TokenSource.parting σ σ' e) fault' := by
        intro σ' _ s' hbegins
        have hresults := Program.ofSource_alike (L := TokenSource.parting σ σ' e)
          ⟨ts, h, hbegins⟩
        rw [hs] at hresults
        generalize Program.ofSource s' = result at hresults
        cases hresults with
        | error he => exact ⟨_, rfl, he⟩
        | lost he => exact absurd (congrArg ParseError.token he) hfault
      refine .inr ⟨fault, ?_, rfl, ?_⟩
      · rintro e' rfl
        obtain ⟨r, _, hyields, -⟩ := h
        obtain ⟨fault', -, he⟩ := halike σ s ⟨r, hyields⟩
        cases he with
        | token hnone => exact hnone
      · intro σ' _ s' hbegins
        obtain ⟨fault', hs', he⟩ := halike σ' s' hbegins
        rw [hs', he.eq (fun _ _ => id) fun _ _ => False.elim]

end

/-! ### Scanners -/

namespace Scanner

/-- What a scanner gives when only blanks are left. -/
theorem next_of_nil {s : Scanner} (h : (s.cursor.skip Text.isBlank).rest = []) :
    s.next = (.ok ⟨.endOfText, (s.cursor.skip Text.isBlank).position⟩,
      { s with cursor := s.cursor.skip Text.isBlank }) := by
  unfold next
  dsimp only
  rw [lexemeAt_of_nil s.limit h]
  rfl

/-- A scanner at the end keeps giving it. -/
theorem next_of_end {s s' : Scanner} {t : Token} (h : s.next = (.ok t, s'))
    (ht : t.weight = 0) : s'.next = (.ok t, s') := by
  obtain ⟨-, ⟨hnil, -⟩ | ⟨_, -, hspells⟩⟩ := next_eq_ok h
  · -- Nothing is left to skip a second time.
    have hskip : (s.cursor.skip Text.isBlank).skip Text.isBlank = s.cursor.skip Text.isBlank := by
      generalize s.cursor.skip Text.isBlank = c at hnil
      obtain ⟨rest, position⟩ := c
      cases hnil
      rfl
    rw [next_of_nil hnil] at h
    cases h
    rw [next_of_nil (by rw [hskip, hnil]), hskip]
  · rw [Token.weight_eq_one_of_ne hspells.lexeme_ne_endOfText] at ht
    cases ht

/-- If a call fails, there is no list of tokens. -/
theorem tokens_of_next_error {s rest : Scanner} {e : TokenError} (h : s.next = (.error e, rest)) :
    s.tokens = .error e := by
  rw [tokens]
  split
  · rename_i hnext
    cases h.symm.trans hnext
    rfl
  · rename_i hnext
    cases h.symm.trans hnext

/-- The list of tokens is the token of the next call and the list behind
it. -/
theorem tokens_of_next_ok {s rest : Scanner} {t : Token} (h : s.next = (.ok t, rest)) :
    s.tokens = if t.weight = 0 then .ok [t] else rest.tokens.map (t :: ·) := by
  rw [tokens]
  split
  · rename_i hnext
    cases h.symm.trans hnext
  · rename_i hnext
    cases h.symm.trans hnext
    rfl

/-- A scanner gives the tokens of its list, and no error. -/
theorem simulates_tokens :
    TokenSource.Simulates (fun (s : Scanner) ts => s.tokens = .ok ts) fun _ => False where
  next := by
    intro s ts t rest hs hnext
    rw [tokens_of_next_ok hnext] at hs
    by_cases ht : t.weight = 0
    · rw [if_pos ht] at hs
      cases hs
      -- Both sources stay at the end.
      refine ⟨[t], by simp [TokenSource.next, nextOfList, ht], ?_⟩
      rw [tokens_of_next_ok (next_of_end hnext ht), if_pos ht]
    · rw [if_neg ht] at hs
      cases hrest : rest.tokens with
      | error e =>
        rw [hrest] at hs
        cases hs
      | ok us =>
        rw [hrest] at hs
        cases hs
        exact ⟨us, by simp [TokenSource.next, nextOfList, ht], rfl⟩
  fail := by
    intro s ts e rest hs hnext
    rw [tokens_of_next_error hnext] at hs
    cases hs

/-- A text without a list of tokens has a token in error. -/
theorem failsAfter_of_tokens {s : Scanner} {e : TokenError} (h : s.tokens = .error e) :
    ∃ ts, FailsAfter s ts e := by
  fun_induction tokens s with
  | case1 s e' rest hnext =>
    cases h
    exact ⟨[], s, rest, .nil, hnext⟩
  | case2 s t rest hnext ht => cases h
  | case3 s t rest hnext ht ih =>
    cases hrest : rest.tokens with
    | ok us =>
      rw [hrest] at h
      cases h
    | error e' =>
      rw [hrest] at h
      cases h
      obtain ⟨us, r, rest', hyields, hfail⟩ := ih hrest
      have hweight : t.weight = 1 := by
        have := t.weight_le_one
        omega
      exact ⟨t :: us, r, rest', .cons hnext hweight hyields, hfail⟩

/-- A text with a token in error has no list of tokens. -/
theorem tokens_of_failsAfter {s : Scanner} {ts : List Token} {e : TokenError}
    (h : FailsAfter s ts e) : s.tokens = .error e := by
  obtain ⟨r, rest, hyields, hfail⟩ := h
  induction hyields with
  | nil => exact tokens_of_next_error hfail
  | cons hnext hweight _ ih =>
    rw [tokens_of_next_ok hnext, if_neg (by omega), ih hfail]
    rfl

end Scanner

/-- A text that has a list of tokens spells what the list spells. -/
theorem Program.ofString_eq_of_tokens {text : String} {limit : Nat} {ts : List Token}
    (h : (Scanner.ofString text limit).tokens = .ok ts) :
    Program.ofString text limit = Program.ofSource ts := by
  rcases Program.ofSource_agrees Scanner.simulates_tokens h with ⟨_, hnone, -⟩ | hsame
  · exact hnone.elim
  · exact hsame.symm

/-- Tokens that are taken on demand are read like the list of them. If the
text has such a list, the text and the list spell the same program or the
same error. If it has not, some tokens `ts` come before the first one in
error; then the text spells no program, and its error is that of the
token, or else an error that is not one of a token and that every source
spells whose tokens begin with `ts`. -/
theorem Program.ofString_on_demand (text : String) (limit : Nat) :
    (∀ ts, (Scanner.ofString text limit).tokens = .ok ts →
      Program.ofString text limit = Program.ofSource ts) ∧
    (∀ e, (Scanner.ofString text limit).tokens = .error e ↔
      ∃ ts, FailsAfter (Scanner.ofString text limit) ts e) ∧
    ∀ ts e, FailsAfter (Scanner.ofString text limit) ts e →
      Program.ofString text limit = .error (.token e) ∨
      ∃ fault, (∀ e', fault ≠ .token e') ∧ Program.ofString text limit = .error fault ∧
        ∀ (σ : Type) [TokenSource σ] (s : σ), Begins s ts → Program.ofSource s = .error fault := by
  refine ⟨?_, ?_, ?_⟩
  · intro ts htokens
    exact Program.ofString_eq_of_tokens htokens
  · intro e
    constructor
    · exact Scanner.failsAfter_of_tokens
    · rintro ⟨ts, hfails⟩
      exact Scanner.tokens_of_failsAfter hfails
  · intro ts e hfails
    exact Program.ofSource_of_failsAfter hfails

end ScalarScript
