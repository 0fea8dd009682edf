import ScalarScript.Execution
import ScalarScript.Proofs.Integer.Text

/-!
# `ScalarScript.Proofs.Integer.RoundTrip`: an integer read back from its text

The text of an integer is read back by `to_int`, and by a program in which
it stands as an expression. In a program the minus of a negative integer is
an operator, and the digits behind it are a token of their own. So the
digits have to be in range without the minus, which those of the least
integer are not; the text of every other integer is an expression for it
(`Integer.text_yields`).

Behind a `return` this expression is read wherever in a text a parser comes
to it (`Integer.returnedBy_text`), and a program that consists of it
gives the integer (`Integer.executeText_return`). `integer_text_round_trips`
has all the readers.
-/

set_option autoImplicit false

namespace ScalarScript

open Grammar
open Spelling (decimal Digits ofSymbol Spells)
open TokenSource (Yields)

/-! ### Tokens that are spelled in a text -/

namespace Spelling

/-- The symbols of two characters start with one of these. -/
theorem mem_of_pair_mem_ofSymbol {c d : Char} {s : Symbol} (h : [c, d] ∈ ofSymbol s) :
    c ∈ ['=', '!', '<', '>', 'i', 'o'] := by
  cases s <;> simp_all [ofSymbol, Symbol.text]

/-- A mark that starts no longer one is spelled in front of anything. -/
theorem spells_mark {c : Char} {s : Symbol} (hs : [c] ∈ ofSymbol s)
    (hword : Scanner.isWordChar c = false) (hlone : c ∉ ['=', '!', '<', '>', 'i', 'o'])
    (next : Option Char) : Spells (.symbol s) [c] next := by
  refine .mark hs (by simpa using hword) ?_
  intro d _ s' h
  exact hlone (mem_of_pair_mem_ofSymbol h)

end Spelling

/-- The tokens that the source of a parser gives are read behind its current
one. -/
theorem Parser.reads_of_yields {σ : Type} [TokenSource σ] {p : Parser σ} {ts : List Token}
    {s s' : σ} {u : Token} (hcurrent : p.current.weight = 1) (hyields : Yields p.source ts s)
    (hnext : TokenSource.next s = (.ok u, s')) :
    p.Reads (p.current :: ts) { p with current := u, source := s' } := by
  induction ts generalizing p with
  | nil =>
    cases hyields
    exact ⟨rfl, hcurrent, _, ⟨u, s', hnext, rfl⟩, rfl⟩
  | cons t ts ih =>
    cases hyields with
    | cons hfirst hweight hyields =>
      have hreads := @ih { p with current := t, source := _ } hweight hyields
      exact ⟨rfl, hcurrent, _, ⟨t, _, hfirst, rfl⟩, hreads⟩

/-- Tokens that are given one list after the other are given as one list. -/
theorem TokenSource.Yields.append {σ : Type} [TokenSource σ] {s r q : σ} {ts us : List Token}
    (h : Yields s ts r) (h' : Yields r us q) : Yields s (ts ++ us) q := by
  induction h with
  | nil => exact h'
  | cons hnext hweight _ ih => exact .cons hnext hweight (ih h')

/-! ### Integers in a program -/

/-- The tokens are an expression, and its value is the integer `n`
wherever it is evaluated. -/
structure Integer.ReadAs (n : Int64) (ts : List Token) (e : Expr) : Prop where
  derives : Derives .top ts e
  eval : ∀ (call : Caller) (vars : Bindings), e.eval call vars = pure (.int n)

namespace Integer

/-- A minus in front of the digits of the opposite. -/
theorem readAs_of_opposite {n m : Int64} (h : m.toInt = -n.toInt) (x y : Position) :
    ReadAs n [mark .minus x, ⟨.int m, y⟩] (.unary .negate (.int m y) x) where
  derives := .single <| .single <| .uncompared <| .single <| .single <|
    .prefixed .minus (.int m y)
  eval := by
    intro call vars
    have hneg : neg? m = some n := by rw [neg?, h, neg_neg, ofInt?_toInt]
    rw [Expr.eval, Expr.eval, pure_bind]
    simp only [UnaryOp.apply, hneg]
    rfl

/-- A scanner at the text of an integer gives the tokens of an expression
for it. The least integer is left out, because its digits alone denote no
integer. -/
theorem text_yields {n : Int64} (hn : n.toInt ≠ least) {s : Scanner} {gap rest : List Char}
    (hrest : s.cursor.rest = gap ++ ((text n).toList ++ rest))
    (hgap : ∀ c ∈ gap, Text.isBlank c = true)
    (hnext : ∀ c ∈ rest.head?, c.isDigit = false ∧ c ≠ '.') :
    ∃ ts e p, Yields s ts ⟨⟨rest, p⟩, s.limit⟩ ∧ ReadAs n ts e := by
  obtain ⟨digits, hdigits, ⟨htext, hvalue⟩ | ⟨htext, hvalue⟩⟩ := exists_digits_text n
  · rw [htext] at hrest
    have hread := Scanner.next_of_spells hrest hgap (.int hdigits hvalue hnext) (by simp)
    exact ⟨_, .int n _, _, .cons hread rfl .nil, .of_primary (.int n _), fun _ _ => rfl⟩
  · -- The digits denote the opposite, which is an integer too.
    have hrange : InRange (decimal digits) := by
      have hin := inRange_toInt n
      simp only [InRange, least] at hin hn ⊢
      omega
    have hopposite := toInt_of_ofInt? (ofInt?_of_inRange hrange)
    have hminus : s.cursor.rest = gap ++ (['-'] ++ (digits ++ rest)) := by rw [hrest, htext]; rfl
    have hsign := Scanner.next_of_spells hminus hgap
      (@Spelling.spells_mark '-' .minus (by decide) (by decide) (by decide) _) (by simp)
    have hread := @Scanner.next_of_spells
      ⟨⟨_, (s.cursor.position.after gap).after ['-']⟩, s.limit⟩ [] _ _ _
      rfl (by simp) (.int hdigits hopposite hnext) (by simp)
    exact ⟨_, _, _, .cons hsign rfl (.cons hread rfl .nil), readAs_of_opposite (by omega) _ _⟩

/-- The text of an integer and a semicolon behind it, with blanks around. -/
theorem text_yields_semicolon {n : Int64} (hn : n.toInt ≠ least) {s : Scanner}
    {gap gap' rest : List Char}
    (hrest : s.cursor.rest = gap ++ ((text n).toList ++ (gap' ++ ';' :: rest)))
    (hgap : ∀ c ∈ gap, Text.isBlank c = true) (hgap' : ∀ c ∈ gap', Text.isBlank c = true) :
    ∃ ts e x p, Yields s (ts ++ [mark .semicolon x]) ⟨⟨rest, p⟩, s.limit⟩ ∧ ReadAs n ts e := by
  -- Neither a blank nor the semicolon carries the number on.
  have hnext : ∀ c ∈ (gap' ++ ';' :: rest).head?, c.isDigit = false ∧ c ≠ '.' := by
    intro c hc
    cases gap' with
    | nil =>
      cases hc
      decide
    | cons d gap' =>
      cases hc
      exact Spelling.not_number_of_isBlank (hgap' c (by simp))
  obtain ⟨ts, e, p, hyields, hreads⟩ := text_yields hn hrest hgap hnext
  have hsemicolon := @Scanner.next_of_spells
    ⟨⟨gap' ++ ([';'] ++ rest), p⟩, s.limit⟩ _ _ _ _ rfl hgap'
    (@Spelling.spells_mark ';' .semicolon (by decide) (by decide) (by decide) _) (by simp)
  exact ⟨ts, e, _, _, hyields.append (.cons hsemicolon rfl .nil), hreads⟩

/-- Behind a `return` the characters are an expression for the integer,
wherever a parser comes to them: with a semicolon behind them it reads a
statement that returns the integer, and it goes on behind the semicolon. -/
def ReturnedBy (n : Int64) (cs : List Char) : Prop :=
  ∀ (p : Parser Scanner) (rest : List Char), p.current.lexeme = .symbol .returnWord →
    p.source.cursor.rest = cs ++ ';' :: rest →
    ∃ (e : Expr) (r : Scanner), (∀ (call : Caller) (vars : Bindings),
        e.eval call vars = pure (.int n)) ∧
      r.cursor.rest = rest ∧ r.limit = p.source.limit ∧
      ∀ u s, r.next = (.ok u, s) →
        Started p.statement? (.returnStmt (some e) p.current.position)
          { p with current := u, source := s }

/-- The text of an integer is returned as this integer, with blanks around
it or not. The least integer is not, since its digits alone are out of
range. -/
theorem returnedBy_text {n : Int64} (hn : n.toInt ≠ least) {gap gap' : List Char}
    (hgap : ∀ c ∈ gap, Text.isBlank c = true) (hgap' : ∀ c ∈ gap', Text.isBlank c = true) :
    ReturnedBy n (gap ++ (text n).toList ++ gap') := by
  intro p rest hcurrent hrest
  simp only [List.append_assoc] at hrest
  obtain ⟨ts, e, x, q, hyields, hreads⟩ := text_yields_semicolon hn hrest hgap hgap'
  refine ⟨e, ⟨⟨rest, q⟩, p.source.limit⟩, hreads.eval, rfl, rfl, ?_⟩
  intro u s hnext
  have htoken : p.current = mark .returnWord p.current.position := by
    show p.current = ⟨.symbol .returnWord, p.current.position⟩
    rw [← hcurrent]
  have hread := Parser.reads_of_yields (by rw [htoken]; rfl) hyields hnext
  rw [Parser.statement?_iff]
  refine ⟨_, hread, ?_, rfl, ?_⟩
  · rw [htoken]
    exact .leaveWith hreads.derives
  · intro hopen
    cases hopen

end Integer

/-! ### A program that returns an integer -/

/-- The tokens in front of the result of a program. -/
theorem Scanner.yields_main (limit : Nat) (rest : List Char) :
    Yields (⟨⟨"main() returns int \x7b return ".toList ++ rest, .start⟩, limit⟩ : Scanner)
      [word "main" ⟨1, 1, 1⟩, mark .leftParen ⟨1, 5, 5⟩, mark .rightParen ⟨1, 6, 6⟩,
        mark .returnsWord ⟨1, 8, 8⟩, mark .intWord ⟨1, 16, 16⟩, mark .leftBrace ⟨1, 20, 20⟩,
        mark .returnWord ⟨1, 22, 22⟩]
      ⟨⟨[' '] ++ rest, ⟨1, 28, 28⟩⟩, limit⟩ := by
  have hname : Scanner.next ⟨⟨"main() returns int \x7b return ".toList ++ rest, .start⟩, limit⟩ =
      (.ok (word "main" ⟨1, 1, 1⟩),
        ⟨⟨"() returns int \x7b return ".toList ++ rest, ⟨1, 5, 5⟩⟩, limit⟩) := rfl
  have hleft : Scanner.next ⟨⟨"() returns int \x7b return ".toList ++ rest, ⟨1, 5, 5⟩⟩, limit⟩ =
      (.ok (mark .leftParen ⟨1, 5, 5⟩),
        ⟨⟨") returns int \x7b return ".toList ++ rest, ⟨1, 6, 6⟩⟩, limit⟩) := rfl
  have hright : Scanner.next ⟨⟨") returns int \x7b return ".toList ++ rest, ⟨1, 6, 6⟩⟩, limit⟩ =
      (.ok (mark .rightParen ⟨1, 6, 6⟩),
        ⟨⟨" returns int \x7b return ".toList ++ rest, ⟨1, 7, 7⟩⟩, limit⟩) := rfl
  have hreturns : Scanner.next ⟨⟨" returns int \x7b return ".toList ++ rest, ⟨1, 7, 7⟩⟩, limit⟩ =
      (.ok (mark .returnsWord ⟨1, 8, 8⟩),
        ⟨⟨" int \x7b return ".toList ++ rest, ⟨1, 15, 15⟩⟩, limit⟩) := rfl
  have htype : Scanner.next ⟨⟨" int \x7b return ".toList ++ rest, ⟨1, 15, 15⟩⟩, limit⟩ =
      (.ok (mark .intWord ⟨1, 16, 16⟩),
        ⟨⟨" \x7b return ".toList ++ rest, ⟨1, 19, 19⟩⟩, limit⟩) := rfl
  have hbrace : Scanner.next ⟨⟨" \x7b return ".toList ++ rest, ⟨1, 19, 19⟩⟩, limit⟩ =
      (.ok (mark .leftBrace ⟨1, 20, 20⟩),
        ⟨⟨" return ".toList ++ rest, ⟨1, 21, 21⟩⟩, limit⟩) := rfl
  have hreturn : Scanner.next ⟨⟨" return ".toList ++ rest, ⟨1, 21, 21⟩⟩, limit⟩ =
      (.ok (mark .returnWord ⟨1, 22, 22⟩), ⟨⟨[' '] ++ rest, ⟨1, 28, 28⟩⟩, limit⟩) := rfl
  exact .cons hname rfl <| .cons hleft rfl <| .cons hright rfl <| .cons hreturns rfl <|
    .cons htype rfl <| .cons hbrace rfl <| .cons hreturn rfl .nil

/-- The text of functions is read, up to the end. -/
theorem Program.ofSource_of_yields {σ : Type} [TokenSource σ] {s r r' : σ} {t u : Token}
    {ts : List Token} {program : Program} (hyields : Yields s (t :: ts) r)
    (hnext : TokenSource.next r = (.ok u, r')) (hend : u.lexeme = .endOfText)
    (hagain : TokenSource.next r' = (.ok u, r'))
    (hfunctions : Functions (t :: ts) program.functions)
    (hwell : ∀ f ∈ program.functions, f.WellFormed) :
    Program.ofSource s = .ok program := by
  cases hyields with
  | cons hfirst hweight hrest =>
    have hreads := @Parser.reads_of_yields _ _ ⟨t, _, 0⟩ _ _ _ _ hweight hrest hnext
    rw [Program.ofSource, Parser.start, hfirst]
    exact (Parser.program_iff _ program).mpr
      ⟨_, _, _, hreads, hend, ⟨u, r', hagain, rfl⟩, hfunctions, hwell⟩

/-- A `main` that returns an expression is a list of functions with one
member. -/
theorem Grammar.functions_return {ts : List Token} {e : Expr} (h : Derives .top ts e)
    {a b c d p q r x z : Position} :
    Functions ([word "main" a, mark .leftParen b, mark .rightParen c, mark .returnsWord d,
        mark .intWord p, mark .leftBrace q, mark .returnWord r] ++ (ts ++ [mark .semicolon x]) ++
        [mark .rightBrace z])
      [⟨"main", [], .int, [.returnStmt (some e) r], q, a⟩] := by
  have hbody := Statements.cons (@Statement.leaveWith r x ts e h) .nil
  have hfunction := @Function.mk "main" a b c d p q z _ _ _ _ _ _ .none (.variable .int) hbody
  simpa using Functions.cons hfunction .nil

/-- A program that has nothing but a function that returns an integer. -/
theorem Program.run_return {program : Program} {e : Expr} {n : Int64} {x y z : Position}
    (hfunctions : program.functions = [⟨"main", [], .int, [.returnStmt (some e) x], y, z⟩])
    (heval : ∀ (call : Caller) (vars : Bindings), e.eval call vars = pure (.int n))
    (limits : Limits) (fuel : Nat) : program.run limits fuel = pure (.int n) := by
  have hname : Builtin.ofName? "main" = none := by decide
  have hclash : program.clash? = none := by
    simp [Program.clash?, hfunctions, hname]
  have hmain : program.function? "main" =
      some ⟨"main", [], .int, [.returnStmt (some e) x], y, z⟩ := by
    rw [Program.function?_eq_find?, hfunctions]
    rfl
  -- The body is one statement, and it leaves at once with the value.
  unfold Program.run Scope.run
  dsimp only
  rw [hclash, hmain]
  dsimp only
  rw [runMain, execAll, Stmt.exec, heval]
  rfl

/-- A program that returns the text of an integer is read, and its value is
the integer. -/
theorem Integer.executeText_return {n : Int64} (hn : n.toInt ≠ least) {gap gap' : List Char}
    (hgap : ∀ c ∈ gap, Text.isBlank c = true) (hgap' : ∀ c ∈ gap', Text.isBlank c = true)
    {source : String} (hsource : source.toList = "main() returns int \x7b return ".toList ++
      (gap ++ ((text n).toList ++ (gap' ++ "; \x7d".toList))))
    (limits : Limits) (fuel : Nat) : executeText source limits fuel = pure (.int n) := by
  have hfront := Scanner.yields_main limits.stringLength
    (gap ++ ((text n).toList ++ (gap' ++ "; \x7d".toList)))
  have hspace : ∀ c ∈ [' '], Text.isBlank c = true := by
    intro c hc
    cases List.mem_singleton.mp hc
    decide
  have hblank : ∀ c ∈ [' '] ++ gap, Text.isBlank c = true := by
    intro c hc
    rcases List.mem_append.mp hc with hc | hc
    · exact hspace c hc
    · exact hgap c hc
  obtain ⟨ts, e, x, p, hyields, hreads⟩ := @Integer.text_yields_semicolon n hn
    ⟨⟨[' '] ++ (gap ++ ((text n).toList ++ (gap' ++ "; \x7d".toList))), ⟨1, 28, 28⟩⟩,
      limits.stringLength⟩ ([' '] ++ gap) gap' [' ', '\x7d'] rfl hblank hgap'
  have hbrace := @Scanner.next_of_spells
    ⟨⟨[' '] ++ (['\x7d'] ++ []), p⟩, limits.stringLength⟩ _ _ _ _ rfl hspace
    (@Spelling.spells_mark '\x7d' .rightBrace (by decide) (by decide) (by decide) _)
    (by simp)
  -- All the tokens of the text, and nothing is left behind them.
  have hlast := (hfront.append hyields).append (.cons hbrace rfl .nil)
  rw [← hsource] at hlast
  have hprogram : Program.ofString source limits.stringLength = .ok (Program.empty.afterOffers
      [⟨"main", [], .int, [.returnStmt (some e) ⟨1, 22, 22⟩], ⟨1, 20, 20⟩, ⟨1, 1, 1⟩⟩]) := by
    refine Program.ofSource_of_yields hlast (Scanner.next_of_nil rfl) rfl (Scanner.next_of_nil rfl)
      ?_ ?_
    · exact Grammar.functions_return hreads.derives
    · intro f hf
      cases List.mem_singleton.mp hf
      exact ⟨.nil, rfl⟩
  rw [executeText, hprogram]
  show Run.asFailure (Program.run _ limits fuel) = _
  rw [Program.run_return rfl hreads.eval]
  rfl

/-- The text of an integer is read back by every reader. With any blanks
around it, `to_int` gives the integer again. So does a program that returns
the text, unless the integer is the least one, and behind any `return` the
text is an expression for the integer. Of all texts, `to_int` takes just
those that denote an integer, and gives that integer; all others are an
error. -/
theorem integer_text_round_trips :
    (∀ n : Int64, ∃ text : String,
      (∀ p t, Builtin.toString.call [.int n] p t = .ok (.string text) t) ∧
      ∀ before behind : String, (∀ c ∈ before.toList, Text.isBlank c = true) →
        (∀ c ∈ behind.toList, Text.isBlank c = true) →
        (∀ p t, Builtin.toInt.call [.string (before ++ text ++ behind)] p t = .ok (.int n) t) ∧
        (n.toInt ≠ -2 ^ 63 →
          Integer.ReturnedBy n (before ++ text ++ behind).toList ∧
          ∀ limits fuel t, executeText
            ("main() returns int \x7b return " ++ before ++ text ++ behind ++ "; \x7d")
            limits fuel t = .ok (.int n) t)) ∧
    ∀ (s : String) (p : Position) (t : Terminal),
      (∀ m, Builtin.toInt.call [.string s] p t = .ok (.int m) t ↔
        Integer.Denotes s.toList m.toInt) ∧
      ((∀ m : Int64, ¬ Integer.Denotes s.toList m.toInt) →
        Builtin.toInt.call [.string s] p t = .error (.castingError .int (.string s) p) t) := by
  constructor
  · intro n
    refine ⟨Integer.text n, fun p t => rfl, ?_⟩
    intro before behind hbefore hbehind
    refine ⟨?_, fun hn => ⟨?_, ?_⟩⟩
    · intro p t
      have hdenotes : Integer.Denotes (before ++ Integer.text n ++ behind).toList n.toInt :=
        ⟨_, _, _, by simp, hbefore, hbehind, Integer.written_text n⟩
      rw [Builtin.toInt_call_of_denotes hdenotes]
      rfl
    · rw [String.toList_append, String.toList_append]
      exact Integer.returnedBy_text hn hbefore hbehind
    · intro limits fuel t
      rw [Integer.executeText_return hn hbefore hbehind (by simp)]
      rfl
  · intro s p t
    refine ⟨fun m => ?_, fun h => ?_⟩
    · exact Builtin.toInt_call_eq_ok_iff s p t m
    · rw [Builtin.toInt_call_of_not_denotes h]
      rfl

/-- The integer next to the least one, with blanks around its text. -/
theorem integer_text_round_trips_next_to_least :
    (∀ p t, Builtin.toInt.call [.string " -9223372036854775807\n"] p t =
      .ok (.int (-9223372036854775807)) t) ∧
    ∀ limits fuel t,
      executeText "main() returns int \x7b return  -9223372036854775807\n; \x7d" limits fuel t =
        .ok (.int (-9223372036854775807)) t := by
  obtain ⟨text, htext, hreaders⟩ := integer_text_round_trips.1 (-9223372036854775807)
  have hshown : text = "-9223372036854775807" := by
    have h := htext .start (.scripted [])
    cases h
    decide
  subst hshown
  have hspace : Text.isBlank ' ' = true := by decide
  have hfeed : Text.isBlank '\n' = true := by decide
  obtain ⟨hread, hreturn⟩ := hreaders " " "\n" (by simpa using hspace) (by simpa using hfeed)
  exact ⟨hread, (hreturn (by decide)).2⟩

end ScalarScript
