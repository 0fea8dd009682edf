import ScalarScript.Parser
import ScalarScript.Proofs.Grammar

/-!
# `ScalarScript.Proofs.Parser.Reading`: which tokens a parser has read

`Parser.Reads p ts q` says that the parser `q` stands behind the tokens
`ts` of the parser `p`. It holds for every source of tokens, since it
only asks what the source gives.

`Parsed.Gives` and `Started` say that a reading ended well, with a value
and a parser behind it. Each way of putting readings together has one
equivalence here (`gives_andThen`, `gives_map`, ...), and each reader of
a single token has two: one for the case that it finds the token, whose
right side is a `Reads` of it, and one for the case that it does not,
which says that the parser stays as it is. The proofs about larger
constructs rewrite with these and never look into `Parsed`.
-/

set_option autoImplicit false

namespace ScalarScript

open Grammar (mark word)

variable {σ : Type} [TokenSource σ] {α β : Type}

namespace Token

/-- Every token but the last counts for what is left to read. -/
theorem weight_eq_one_of_ne {t : Token} (h : t.lexeme ≠ .endOfText) : t.weight = 1 := by
  unfold weight
  split
  · contradiction
  · rfl

end Token

/-! ### Readings that end well -/

namespace Parsed

variable {n : Nat}

/-- The reading ends with a value and the parser behind it. -/
def Gives (r : Parsed σ n α) (a : α) (q : Parser σ) : Prop :=
  r.result = (.ok a, q)

/-- The parser behind a value is nearer to the end. -/
theorem Gives.size_lt {r : Parsed σ n α} {a : α} {q : Parser σ} (h : r.Gives a q) :
    q.size < n := by
  cases r with
  | error e q' => cases h
  | ok a' q' hq' =>
    cases h
    exact hq'

@[simp] theorem gives_error (e : ParseError) (p : Parser σ) (a : α) (q : Parser σ) :
    (Parsed.error e p : Parsed σ n α).Gives a q ↔ False := by
  constructor
  · intro h
    cases h
  · exact False.elim

@[simp] theorem gives_done (a b : α) (p q : Parser σ) (h : p.size ≤ n) :
    (Parsed.done a p h).Gives b q ↔ b = a ∧ q = p := by
  constructor
  · intro h
    cases h
    exact ⟨rfl, rfl⟩
  · rintro ⟨rfl, rfl⟩
    rfl

@[simp] theorem gives_within {m : Nat} (r : Parsed σ m α) (h : m ≤ n) (a : α) (q : Parser σ) :
    (r.within h).Gives a q ↔ r.Gives a q := by
  cases r <;> rfl

@[simp] theorem gives_loose (r : Parsed σ n α) (a : α) (q : Parser σ) :
    r.loose.Gives a q ↔ r.Gives a q :=
  gives_within r _ a q

@[simp] theorem gives_map (f : α → β) (r : Parsed σ n α) (b : β) (q : Parser σ) :
    (r.map f).Gives b q ↔ ∃ a, r.Gives a q ∧ b = f a := by
  cases r with
  | error e q' => simp [Parsed.map]
  | ok a q' hq' =>
    constructor
    · intro h
      cases h
      exact ⟨a, rfl, rfl⟩
    · rintro ⟨a', h, rfl⟩
      cases h
      rfl

/-- Reading one construct after another gives the second, from where the
first has ended. -/
theorem gives_andThen (r : Parsed σ n α)
    (next : α → (q : Parser σ) → q.size < n → Parsed σ (q.size + 1) β) (b : β) (s : Parser σ) :
    (r.andThen next).Gives b s ↔ ∃ a q, ∃ h : q.size < n, r.Gives a q ∧ (next a q h).Gives b s := by
  cases r with
  | error e q' => simp [Parsed.andThen]
  | ok a q hq =>
    -- The result of `andThen` is the result of `next`, whose bound is not part of it.
    have hresult : ((Parsed.ok a q hq).andThen next).Gives b s ↔ (next a q hq).Gives b s := by
      simp only [Parsed.andThen, Gives]
      cases next a q hq <;> rfl
    rw [hresult]
    constructor
    · intro h
      exact ⟨a, q, hq, rfl, h⟩
    · rintro ⟨a', q', hq', h, h'⟩
      cases h
      exact h'

end Parsed

/-- A construct starts here, and the reading of it ends with a value and
the parser behind it. -/
def Started {n : Nat} (o : Attempt σ n α) (a : α) (q : Parser σ) : Prop :=
  ∃ r, o = .found r ∧ r.Gives a q

namespace Started

variable {n : Nat}

@[simp] theorem found_iff (r : Parsed σ n α) (a : α) (q : Parser σ) :
    Started (.found r) a q ↔ r.Gives a q := by
  simp [Started]

@[simp] theorem absent_iff (p : Parser σ) (h : p.size ≤ n) (a : α) (q : Parser σ) :
    Started (.absent p h) a q ↔ False := by
  simp [Started]

@[simp] theorem within_iff {m : Nat} (o : Attempt σ m α) (h : m ≤ n) (a : α) (q : Parser σ) :
    Started (o.within h) a q ↔ Started o a q := by
  cases o <;> simp [Attempt.within]

/-- A construct that is found and changed is found. -/
theorem map_iff (o : Attempt σ n α) (f : Parsed σ n α → Parsed σ n β) (b : β) (q : Parser σ) :
    Started (o.map f) b q ↔ ∃ r, o = .found r ∧ (f r).Gives b q := by
  cases o <;> simp [Attempt.map]

end Started

/-- A construct that has to be there is read exactly as one that may be
there. -/
theorem Parsed.gives_orError {n : Nat} (o : Attempt σ n α) (missing : Parser σ → ParseError)
    (a : α) (q : Parser σ) : (o.orError missing).Gives a q ↔ Started o a q := by
  cases o <;> simp [Attempt.orError]

namespace Attempt

variable {n : Nat}

@[simp] theorem map_eq_absent_iff (o : Attempt σ n α) (f : Parsed σ n α → Parsed σ n β)
    (q : Parser σ) (h : q.size ≤ n) : o.map f = .absent q h ↔ o = .absent q h := by
  cases o <;> simp [Attempt.map]

/-- Under its own bound an attempt is what it was. -/
@[simp] theorem within_rfl (o : Attempt σ n α) (h : n ≤ n) : o.within h = o := by
  cases o with
  | absent q hq => rfl
  | found read => cases read <;> rfl

end Attempt

namespace Parser

/-! ### Tokens that were read -/

/-- The parser `q` stands behind the current token of `p`. -/
def Moves (p q : Parser σ) : Prop :=
  ∃ t rest, TokenSource.next p.source = (.ok t, rest) ∧
    q = { p with current := t, source := rest }

/-- The parser `q` stands behind the tokens `ts` of `p`, none of which is
the end. -/
def Reads : Parser σ → List Token → Parser σ → Prop
  | p, [], q => q = p
  | p, t :: ts, q => p.current = t ∧ t.weight = 1 ∧ ∃ r, p.Moves r ∧ r.Reads ts q

@[simp] theorem reads_nil (p q : Parser σ) : p.Reads [] q ↔ q = p := Iff.rfl

/-- Tokens are read one after the other. -/
theorem reads_cons (p q : Parser σ) (t : Token) (ts : List Token) :
    p.Reads (t :: ts) q ↔ ∃ r, p.Reads [t] r ∧ r.Reads ts q := by
  constructor
  · rintro ⟨hc, hw, r, hr, h⟩
    exact ⟨r, ⟨hc, hw, r, hr, rfl⟩, h⟩
  · rintro ⟨r, ⟨hc, hw, r', hr, rfl⟩, h⟩
    exact ⟨hc, hw, r, hr, h⟩

/-- Reading two lists of tokens is reading the first and then the second. -/
theorem reads_append (p q : Parser σ) (ts us : List Token) :
    p.Reads (ts ++ us) q ↔ ∃ r, p.Reads ts r ∧ r.Reads us q := by
  induction ts generalizing p with
  | nil => simp
  | cons t ts ih =>
    rw [List.cons_append, reads_cons]
    constructor
    · rintro ⟨r, ht, h⟩
      obtain ⟨s, hs, h⟩ := (ih r).mp h
      exact ⟨s, (reads_cons p s t ts).mpr ⟨r, ht, hs⟩, h⟩
    · rintro ⟨s, hs, h⟩
      obtain ⟨r, ht, hs⟩ := (reads_cons p s t ts).mp hs
      exact ⟨r, ht, (ih r).mpr ⟨s, hs, h⟩⟩

/-- The first token that is read is the current one. -/
theorem Reads.current {p q : Parser σ} {t : Token} {ts : List Token}
    (h : p.Reads (t :: ts) q) : p.current = t := h.1

/-- Tokens that are read one list after the other are read as one list. -/
theorem Reads.trans {p q r : Parser σ} {ts us : List Token} (h : p.Reads ts q)
    (h' : q.Reads us r) : p.Reads (ts ++ us) r :=
  (reads_append p r ts us).mpr ⟨q, h, h'⟩

/-- One token in front of further ones. -/
theorem Reads.cons {p q r : Parser σ} {t : Token} {us : List Token} (h : p.Reads [t] q)
    (h' : q.Reads us r) : p.Reads (t :: us) r :=
  h.trans h'

/-- Moving on leaves the count of loops as it was. -/
theorem Moves.loops_eq {p q : Parser σ} (h : p.Moves q) : q.loops = p.loops := by
  obtain ⟨t, rest, -, rfl⟩ := h
  rfl

/-- Reading tokens leaves the count of loops as it was. -/
theorem Reads.loops_eq {p q : Parser σ} {ts : List Token} (h : p.Reads ts q) :
    q.loops = p.loops := by
  induction ts generalizing p with
  | nil => rw [reads_nil] at h; rw [h]
  | cons t ts ih =>
    obtain ⟨-, -, r, hr, h⟩ := h
    rw [ih h, hr.loops_eq]

/-- Every token that was read makes the parser smaller. -/
theorem Reads.size_add_length_le {p q : Parser σ} {ts : List Token} (h : p.Reads ts q) :
    q.size + ts.length ≤ p.size := by
  -- Each token weighs one, and taking it takes that much off the size.
  induction ts generalizing p with
  | nil => rw [reads_nil] at h; simp [h]
  | cons t ts ih =>
    obtain ⟨hc, hw, r, ⟨u, rest, hnext, rfl⟩, h⟩ := h
    have hle := ih h
    have hstep := TokenSource.size_next hnext
    simp only [size, hc, hw, List.length_cons] at hle hstep ⊢
    omega

/-- Reading leads no further away from the end. -/
theorem Reads.size_le {p q : Parser σ} {ts : List Token} (h : p.Reads ts q) :
    q.size ≤ p.size := by
  have := h.size_add_length_le
  omega

/-- Reading at least one token leads nearer to the end. -/
theorem Reads.size_lt {p q : Parser σ} {t : Token} {ts : List Token} (h : p.Reads (t :: ts) q) :
    q.size < p.size := by
  have := h.size_add_length_le
  simp only [List.length_cons] at this
  omega

/-! ### Readers of one token -/

/-- Moving on gives the current token, if there is a next one. -/
theorem gives_advance (p : Parser σ) {n : Nat} (h : p.size < n + p.current.weight) (t : Token)
    (q : Parser σ) : (p.advance h).Gives t q ↔ t = p.current ∧ p.Moves q := by
  unfold advance Moves
  split
  · rename_i u rest hnext
    constructor
    · intro h'
      cases h'
      exact ⟨rfl, u, rest, hnext, rfl⟩
    · rintro ⟨rfl, u', rest', hnext', rfl⟩
      rw [hnext] at hnext'
      cases hnext'
      rfl
  · rename_i e rest hnext
    constructor
    · intro h'
      cases h'
    · rintro ⟨-, u', rest', hnext', -⟩
      rw [hnext] at hnext'
      cases hnext'

/-- A token that means something is read, and nothing more. -/
theorem started_accept? (p : Parser σ) (meaning : Lexeme → Option α) (a : α) (x : Position)
    (q : Parser σ) :
    Started (p.accept? meaning) (a, x) q ↔
      ∃ l, meaning l = some a ∧ p.Reads [⟨l, x⟩] q := by
  unfold accept?
  split
  · rename_i hw
    split
    · rename_i b hb
      rw [Started.found_iff, Parsed.gives_map]
      constructor
      · rintro ⟨t, ht, hab⟩
        obtain ⟨rfl, hmoves⟩ := (gives_advance _ _ _ _).mp ht
        cases hab
        exact ⟨p.current.lexeme, hb, rfl, hw, q, hmoves, rfl⟩
      · rintro ⟨l, hl, hc, -, r, hmoves, rfl⟩
        rw [hc, hl] at hb
        cases hb
        exact ⟨p.current, (gives_advance _ _ _ _).mpr ⟨rfl, hmoves⟩, by rw [hc]⟩
    · rename_i hnone
      simp only [Started.absent_iff, false_iff]
      rintro ⟨l, hl, hc, -⟩
      rw [hc, hl] at hnone
      cases hnone
  · rename_i hw
    simp only [Started.absent_iff, false_iff]
    rintro ⟨l, -, hc, hw', -⟩
    rw [hc] at hw
    contradiction

/-- Nothing is found where the current token means nothing, and then the
parser stays as it is. -/
theorem accept?_eq_absent_iff (p : Parser σ) (meaning : Lexeme → Option α)
    (hend : meaning .endOfText = none) (q : Parser σ) (h : q.size ≤ p.size) :
    p.accept? meaning = .absent q h ↔ q = p ∧ meaning p.current.lexeme = none := by
  unfold accept?
  split
  · split <;> simp_all [eq_comm]
  · -- The end of the text is the only token without weight, and it means nothing.
    rename_i hw
    have hc : p.current.lexeme = .endOfText :=
      Classical.byContradiction fun hne => hw (Token.weight_eq_one_of_ne hne)
    simp [hc, hend, eq_comm]

/-- A symbol is accepted exactly if it is read and has the meaning. -/
theorem started_acceptSymbol? (p : Parser σ) (meaning : Symbol → Option α) (a : α)
    (x : Position) (q : Parser σ) :
    Started (p.acceptSymbol? meaning) (a, x) q ↔
      ∃ s, meaning s = some a ∧ p.Reads [mark s x] q := by
  unfold acceptSymbol?
  rw [started_accept?]
  constructor
  · rintro ⟨l, hl, h⟩
    obtain ⟨s, hs, hm⟩ := Option.bind_eq_some_iff.mp hl
    cases l <;> cases hs
    exact ⟨s, hm, h⟩
  · rintro ⟨s, hs, h⟩
    exact ⟨.symbol s, hs, h⟩

/-- A symbol is absent exactly if the current token has no meaning, and
then the parser is as it was. -/
theorem acceptSymbol?_eq_absent_iff (p : Parser σ) (meaning : Symbol → Option α) (q : Parser σ)
    (h : q.size ≤ p.size) :
    p.acceptSymbol? meaning = .absent q h ↔
      q = p ∧ ∀ s, p.current.lexeme = .symbol s → meaning s = none := by
  unfold acceptSymbol?
  rw [accept?_eq_absent_iff _ _ rfl]
  cases p.current.lexeme <;> simp [Lexeme.symbol?]

/-- One symbol is accepted exactly if it is read. -/
theorem started_acceptSymbol?_only (p : Parser σ) (s : Symbol) (u : Unit) (x : Position)
    (q : Parser σ) :
    Started (p.acceptSymbol? (only s)) (u, x) q ↔ p.Reads [mark s x] q := by
  rw [started_acceptSymbol?]
  simp [only]

/-- One symbol is absent exactly if the current token is another one, and
then the parser is as it was. -/
theorem acceptSymbol?_only_eq_absent_iff (p : Parser σ) (s : Symbol) (q : Parser σ)
    (h : q.size ≤ p.size) :
    p.acceptSymbol? (only s) = .absent q h ↔ q = p ∧ p.current.lexeme ≠ .symbol s := by
  rw [acceptSymbol?_eq_absent_iff]
  refine and_congr_right fun _ => ?_
  constructor
  · intro h hs
    have := h s hs
    simp [only] at this
  · intro h s' hs'
    unfold only
    split
    · rename_i heq
      rw [hs', heq] at h
      contradiction
    · rfl

/-- One of several symbols is read exactly if it is among the choices. -/
theorem gives_expectAmong (p : Parser σ) (choices : List (Symbol × α)) (a : α) (x : Position)
    (q : Parser σ) :
    (p.expectAmong choices).Gives (a, x) q ↔
      ∃ s, choices.lookup s = some a ∧ p.Reads [mark s x] q := by
  unfold expectAmong
  rw [Parsed.gives_orError, started_acceptSymbol?]

/-- A symbol that has to be there is read exactly if it is the current
token. -/
theorem gives_expect (p : Parser σ) (s : Symbol) (u : Unit) (q : Parser σ) :
    (p.expect s).Gives u q ↔ ∃ x, p.Reads [mark s x] q := by
  unfold expect
  rw [Parsed.gives_map]
  constructor
  · rintro ⟨⟨u', x⟩, h, -⟩
    obtain ⟨s', hs', hreads⟩ := (gives_expectAmong _ _ _ _ _).mp h
    by_cases hss : s' = s
    · rw [hss] at hreads
      exact ⟨x, hreads⟩
    · simp [List.lookup_cons, beq_false_of_ne hss] at hs'
  · rintro ⟨x, h⟩
    exact ⟨((), x), (gives_expectAmong _ _ _ _ _).mpr ⟨s, by simp, h⟩, rfl⟩

/-- An identifier is accepted exactly if it is read. -/
theorem started_identifier? (p : Parser σ) (name : String) (x : Position) (q : Parser σ) :
    Started p.identifier? (name, x) q ↔ p.Reads [word name x] q := by
  rw [identifier?_eq, started_accept?]
  constructor
  · rintro ⟨l, hl, h⟩
    cases l <;> cases hl
    exact h
  · intro h
    exact ⟨.identifier name, rfl, h⟩

/-- An identifier is absent exactly if the current token is no name, and
then the parser is as it was. -/
theorem identifier?_eq_absent_iff (p q : Parser σ) (h : q.size ≤ p.size) :
    p.identifier? = .absent q h ↔ q = p ∧ p.current.lexeme.name? = none := by
  rw [identifier?_eq]
  exact accept?_eq_absent_iff p Lexeme.name? rfl q h

/-- An identifier that has to be there is read exactly if it is the
current token. -/
theorem gives_expectIdentifier (p : Parser σ) (name : String) (x : Position) (q : Parser σ) :
    p.expectIdentifier.Gives (name, x) q ↔ p.Reads [word name x] q := by
  unfold expectIdentifier
  rw [Parsed.gives_orError, started_identifier?]

/-- A construct that may be left out is read, or it is absent and reading
goes on from where the attempt has left the parser. -/
theorem gives_optional (p : Parser σ) (o : Attempt σ p.size α) (value : Option α)
    (q : Parser σ) :
    (p.optional o).Gives value q ↔
      (value = none ∧ ∃ h, o = .absent q h) ∨ ∃ a, value = some a ∧ Started o a q := by
  cases o with
  | absent q' h' =>
    simp only [optional, Parsed.gives_done, Attempt.absent.injEq, Started.absent_iff, and_false,
      exists_false, or_false]
    refine and_congr_right fun _ => ⟨?_, ?_⟩
    · rintro rfl
      exact ⟨h', rfl⟩
    · rintro ⟨-, rfl⟩
      rfl
  | found read => simp [optional, and_comm]

omit [TokenSource σ] in
/-- A parser is at a symbol exactly if this is the current token. -/
theorem isAt_iff (p : Parser σ) (s : Symbol) :
    p.isAt s = true ↔ p.current.lexeme = .symbol s := by
  unfold isAt Token.kind
  cases p.current.lexeme <;> simp [Lexeme.kind]

/-! ### The count of loops

Reading tokens neither looks at the count of loops nor changes it. -/

/-- The parser with another count of loops. -/
def withLoops (p : Parser σ) (n : Nat) : Parser σ :=
  { p with loops := n }

/-- Moving on does not depend on the count of loops. -/
theorem withLoops_moves_iff (p q : Parser σ) (n : Nat) :
    (p.withLoops n).Moves q ↔ ∃ r, p.Moves r ∧ q = r.withLoops n := by
  constructor
  · rintro ⟨t, rest, h, rfl⟩
    exact ⟨_, ⟨t, rest, h, rfl⟩, rfl⟩
  · rintro ⟨_, ⟨t, rest, h, rfl⟩, rfl⟩
    exact ⟨t, rest, h, rfl⟩

/-- Reading tokens does not depend on the count of loops. -/
theorem withLoops_reads_iff (p q : Parser σ) (n : Nat) (ts : List Token) :
    (p.withLoops n).Reads ts q ↔ ∃ r, p.Reads ts r ∧ q = r.withLoops n := by
  induction ts generalizing p with
  | nil => simp
  | cons t ts ih =>
    constructor
    · rintro ⟨hc, hw, r, hr, h⟩
      obtain ⟨s, hs, rfl⟩ := (withLoops_moves_iff p r n).mp hr
      obtain ⟨u, hu, rfl⟩ := (ih s).mp h
      exact ⟨u, ⟨hc, hw, s, hs, hu⟩, rfl⟩
    · rintro ⟨u, ⟨hc, hw, s, hs, hu⟩, rfl⟩
      exact ⟨hc, hw, s.withLoops n, (withLoops_moves_iff p _ n).mpr ⟨s, hs, rfl⟩,
        (ih s).mpr ⟨u, hu, rfl⟩⟩

end Parser

end ScalarScript
