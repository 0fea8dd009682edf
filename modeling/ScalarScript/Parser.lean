import ScalarScript.ParseError
import ScalarScript.Token.Source

/-!
# `ScalarScript.Parser`: reading tokens with one of them in view

A parser holds the current token, the source of the next ones, and the
number of loops around the place that is being read. To look for a
construct gives an `Attempt`: the construct is absent, and reading goes
on from the parser that the attempt has left, or it is found.

A construct that is found gives a `Parsed`: a value and the parser
behind it, or an error and the parser where reading stopped, from which
reading can go on. The bounds in the types say that the parser behind a
value is nearer to the end and that an attempt never leads away from it,
and this is what makes the readers of nested constructs total.
-/

set_option autoImplicit false

namespace ScalarScript

/-- A reader of tokens. -/
structure Parser (σ : Type) where
  current : Token
  source : σ
  /-- The loops of the current function that enclose the current token. -/
  loops : Nat

section

variable {σ : Type} [TokenSource σ] {α β : Type}

/-- How much is left to read. -/
def Parser.size (p : Parser σ) : Nat :=
  TokenSource.size p.source + p.current.weight

/-- The outcome of reading a construct. On success the parser behind it
is smaller than the bound. -/
inductive Parsed (σ : Type) [TokenSource σ] (bound : Nat) (α : Type) where
  | ok (value : α) (rest : Parser σ) (smaller : rest.size < bound)
  | error (error : ParseError) (rest : Parser σ)

/-- The outcome of looking for a construct: it is absent, with the parser
from which reading goes on, or it is found and read. -/
inductive Attempt (σ : Type) [TokenSource σ] (bound : Nat) (α : Type) where
  | absent (rest : Parser σ) (within : rest.size ≤ bound)
  | found (read : Parsed σ bound α)

/-- A reader of a construct, at a parser `top` and all smaller ones. It
reads at least one token where it finds the construct. -/
abbrev Reader {σ : Type} [TokenSource σ] (top : Parser σ) (α : Type) :=
  (p : Parser σ) → p.size ≤ top.size → Attempt σ p.size α

/-- A reader of the constructs that are nested in one that starts at
`top`: a reader at the parsers smaller than that. -/
abbrev NestedReader {σ : Type} [TokenSource σ] (top : Parser σ) (α : Type) :=
  (p : Parser σ) → p.size < top.size → Attempt σ p.size α

namespace Parser

/-! ### Sizes

Facts about numbers, stated for the sizes of parsers. The readers give
them as proofs by name, so that no size is unfolded there. -/

theorem lt_of_le {p q : Parser σ} {n : Nat} (hq : q.size < p.size + 1) (hp : p.size < n) :
    q.size < n :=
  Nat.lt_of_le_of_lt (Nat.le_of_lt_succ hq) hp

theorem lt_trans {p q r : Parser σ} (hq : q.size < p.size) (hp : p.size < r.size) :
    q.size < r.size :=
  Nat.lt_trans hq hp

theorem lt_of_lt_of_le {p q r : Parser σ} (hq : q.size < p.size) (hp : p.size ≤ r.size) :
    q.size < r.size :=
  Nat.lt_of_lt_of_le hq hp

theorem le_of_lt {p q : Parser σ} (h : q.size < p.size) : q.size ≤ p.size :=
  Nat.le_of_lt h

theorem le_trans {p q r : Parser σ} (hq : q.size ≤ p.size) (hp : p.size ≤ r.size) :
    q.size ≤ r.size :=
  Nat.le_trans hq hp

theorem lt_of_le_of_lt {p q r : Parser σ} (hq : q.size ≤ p.size) (hp : p.size < r.size) :
    q.size < r.size :=
  Nat.lt_of_le_of_lt hq hp

theorem le_refl (p : Parser σ) : p.size ≤ p.size :=
  Nat.le_refl p.size

theorem le_succ_of_le {p : Parser σ} {n : Nat} (h : p.size ≤ n) : p.size ≤ n + 1 :=
  Nat.le_succ_of_le h

theorem size_lt_add_weight {p : Parser σ} (h : p.current.weight = 1) :
    p.size < p.size + p.current.weight :=
  h ▸ Nat.lt_succ_self p.size

theorem size_lt_succ_add_weight (p : Parser σ) : p.size < p.size + 1 + p.current.weight :=
  Nat.lt_of_lt_of_le (Nat.lt_succ_self p.size) (Nat.le_add_right _ _)

end Parser

namespace Parsed

/-- The value that was read, and nothing more. -/
@[inline] def done {n : Nat} (a : α) (p : Parser σ) (h : p.size ≤ n) : Parsed σ (n + 1) α :=
  .ok a p (Nat.lt_succ_of_le h)

/-- Reads on behind a construct. -/
@[inline] def andThen {n : Nat} (r : Parsed σ n α)
    (next : α → (q : Parser σ) → q.size < n → Parsed σ (q.size + 1) β) : Parsed σ n β :=
  match r with
  | .error e q => .error e q
  | .ok a q hq =>
    match next a q hq with
    | .error e r => .error e r
    | .ok b r hr => .ok b r (Parser.lt_of_le hr hq)

/-- The same outcome under a larger bound. -/
@[inline] def within {m n : Nat} (r : Parsed σ m α) (hmn : m ≤ n) : Parsed σ n α :=
  match r with
  | .error e q => .error e q
  | .ok a q h => .ok a q (Nat.lt_of_lt_of_le h hmn)

/-- Forgets that a token was read. -/
@[inline] def loose {n : Nat} (r : Parsed σ n α) : Parsed σ (n + 1) α :=
  r.within n.le_succ

/-- Changes the value. -/
@[inline] def map {n : Nat} (f : α → β) (r : Parsed σ n α) : Parsed σ n β :=
  match r with
  | .error e q => .error e q
  | .ok a q h => .ok (f a) q h

/-- The outcome without its bound. -/
def result {n : Nat} : Parsed σ n α → Except ParseError α × Parser σ
  | .ok a q _ => (.ok a, q)
  | .error e q => (.error e, q)

end Parsed

namespace Attempt

/-- Changes what is found. -/
@[inline] def map {n : Nat} (f : Parsed σ n α → Parsed σ n β) (o : Attempt σ n α) :
    Attempt σ n β :=
  match o with
  | .absent q h => .absent q h
  | .found read => .found (f read)

/-- The same outcome under a larger bound. -/
@[inline] def within {m n : Nat} (o : Attempt σ m α) (hmn : m ≤ n) : Attempt σ n α :=
  match o with
  | .absent q h => .absent q (Nat.le_trans h hmn)
  | .found read => .found (read.within hmn)

/-- Reads a construct that has to be there, with the error that it is
not. -/
@[inline] def orError {n : Nat} (o : Attempt σ n α) (missing : Parser σ → ParseError) :
    Parsed σ n α :=
  match o with
  | .absent q _ => .error (missing q) q
  | .found read => read

end Attempt

namespace Parser

/-- Starts reading. The first token may already be in error. -/
def start (source : σ) : Except ParseError (Parser σ) :=
  match TokenSource.next source with
  | (.ok t, rest) => .ok ⟨t, rest, 0⟩
  | (.error e, _) => .error (.token e)

/-- Gives the current token and moves to the next. If that one is in
error, the current token stays and the source has moved on. -/
def advance (p : Parser σ) {n : Nat} (h : p.size < n + p.current.weight) : Parsed σ n Token :=
  match _next : TokenSource.next p.source with
  | (.ok t, rest) =>
    .ok p.current { p with current := t, source := rest } (by
      have := TokenSource.size_next _next
      simp only [size] at h ⊢
      omega)
  | (.error e, rest) => .error (.token e) { p with source := rest }

/-- Reads the current token if it means something, and gives its meaning
and its place. The end of the text means nothing. -/
def accept? (p : Parser σ) (meaning : Lexeme → Option α) : Attempt σ p.size (α × Position) :=
  if h : p.current.weight = 1 then
    match meaning p.current.lexeme with
    | some a => .found <| (p.advance (size_lt_add_weight h)).map fun t => (a, t.position)
    | none => .absent p p.le_refl
  else .absent p p.le_refl

/-- Reads the current token if its kind starts something, and gives what
its value means there and its place. A value without a meaning does not fit
the kind and is refused. -/
def take? (p : Parser σ) (starts : Kind → Bool) (meaning : Kind → Option TokenValue → Option α) :
    Attempt σ p.size (α × Position) :=
  if h : p.current.weight = 1 ∧ starts p.current.kind then
    .found <| (p.advance (size_lt_add_weight h.1)).andThen fun t q _ =>
      match meaning t.kind t.lexeme.value with
      | some a => .done (a, t.position) q q.le_refl
      | none => .error (.token (.inconsistentToken t.kind t.lexeme.value t.position)) q
  else .absent p p.le_refl

/-- Reads the current token if it is a symbol that means something. -/
def acceptSymbol? (p : Parser σ) (meaning : Symbol → Option α) :
    Attempt σ p.size (α × Position) :=
  p.accept? fun l => l.symbol?.bind meaning

/-- The meaning of one symbol, and of no other. -/
def only (expected s : Symbol) : Option Unit :=
  if s = expected then some () else none

/-- Whether a symbol stands here. -/
def isAt (p : Parser σ) (s : Symbol) : Bool :=
  p.current.kind = .symbol s

/-- The error that another kind of token has to stand here. -/
def unexpected (p : Parser σ) (expected : List Kind) : ParseError :=
  .unexpectedToken expected p.current.lexeme p.current.position

/-- Reads one of several symbols, which has to stand here. -/
def expectAmong (p : Parser σ) (choices : List (Symbol × α)) :
    Parsed σ p.size (α × Position) :=
  (p.acceptSymbol? fun s => choices.lookup s).orError fun q =>
    q.unexpected (choices.map fun c => .symbol c.1)

/-- Reads a symbol, which has to stand here. -/
def expect (p : Parser σ) (s : Symbol) : Parsed σ p.size Unit :=
  (p.expectAmong [(s, ())]).map Prod.fst

/-- Reads a construct that may be left out. -/
def optional (p : Parser σ) (construct : Attempt σ p.size α) : Parsed σ (p.size + 1) (Option α) :=
  match construct with
  | .absent q hq => .done none q hq
  | .found read => .loose <| read.map some

/-- Reads an identifier that stands here. -/
def identifier? (p : Parser σ) : Attempt σ p.size (String × Position) :=
  p.take? (· = .identifier) fun _ value => value.bind TokenValue.text?

/-- Reads an identifier, which has to stand here. -/
def expectIdentifier (p : Parser σ) : Parsed σ p.size (String × Position) :=
  p.identifier?.orError fun q => q.unexpected [.identifier]

/-- The value of a token fits its kind. So `take?` refuses nothing where
every lexeme of the kinds that start something has a meaning. -/
theorem take?_eq_accept? (p : Parser σ) {starts : Kind → Bool}
    {meaning : Kind → Option TokenValue → Option α} {ofLexeme? : Lexeme → Option α}
    (hstarts : ∀ l : Lexeme, starts l.kind = (ofLexeme? l).isSome)
    (hmeaning : ∀ (l : Lexeme) (a : α), ofLexeme? l = some a → meaning l.kind l.value = some a) :
    p.take? starts meaning = p.accept? ofLexeme? := by
  have hstart : starts p.current.kind = (ofLexeme? p.current.lexeme).isSome :=
    hstarts p.current.lexeme
  unfold take? accept?
  by_cases hweight : p.current.weight = 1
  · rw [dif_pos hweight]
    cases hlexeme : ofLexeme? p.current.lexeme with
    | none =>
      rw [hlexeme] at hstart
      rw [dif_neg (by simp [hstart])]
    | some a =>
      have hvalue : meaning p.current.kind p.current.lexeme.value = some a :=
        hmeaning p.current.lexeme a hlexeme
      rw [hlexeme] at hstart
      rw [dif_pos ⟨hweight, hstart⟩]
      refine congrArg Attempt.found ?_
      -- Moving on gives the token that was looked at.
      unfold advance
      split
      · simp only [Parsed.andThen, hvalue]
        rfl
      · rfl
  · rw [dif_neg hweight, dif_neg fun h => hweight h.1]

/-- An identifier is accepted by its name. It is never refused, since its
value fits its kind. -/
theorem identifier?_eq (p : Parser σ) : p.identifier? = p.accept? Lexeme.name? := by
  refine p.take?_eq_accept? ?_ ?_
  · intro l
    cases l <;> rfl
  · intro l name hname
    cases l with
    | identifier s => exact hname
    | _ => cases hname

end Parser

end

end ScalarScript
