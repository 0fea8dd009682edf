import ScalarScript.Program.Parser
import ScalarScript.Proofs.Declarations
import ScalarScript.Proofs.Parser.Statement

/-!
# `ScalarScript.Proofs.Parser.Program`: programs are read by the grammar

`program_iff` says which programs a parser reads, for every source of
tokens: those whose functions the grammar derives from the tokens up to
the end of the text, with different parameters in each function and a
loop around each `break` and `continue`. The names of the functions are
different because a `Program` has no other ones.

The body of a function is read outside of all loops, whatever the count
of loops is in front of it. So the count at the first token plays no
part, and the statements compare parsers up to `outsideLoops`.

A list of tokens is the source about which most can be said, since all
its tokens are known. `Parser.Awaits` ties the parser to the tokens that
it has yet to read, and `ofSource_list_iff_functions` is the theorem that
the parser accepts exactly the language of the grammar and builds
exactly its trees.
-/

set_option autoImplicit false

namespace ScalarScript

open Grammar

namespace Parser

variable {σ : Type} [TokenSource σ]

/-! ### Parameters -/

/-- A parameter is read exactly where one is spelled. -/
theorem started_parameter?_iff (p : Parser σ) (x : Parameter) (q : Parser σ) :
    Started p.parameter? x q ↔ ∃ ts, p.Reads ts q ∧ ParameterOf ts x := by
  rw [parameter?, Started.map_iff]
  constructor
  · rintro ⟨named, hnamed, h⟩
    rw [Parsed.gives_andThen] at h
    obtain ⟨⟨name, y⟩, q₁, hq₁, hname, h⟩ := h
    have hname := (started_identifier? _ _ _ _).mp ⟨named, hnamed, hname⟩
    rw [Parsed.gives_loose, Parsed.gives_andThen] at h
    obtain ⟨_, q₂, hq₂, hcolon, h⟩ := h
    obtain ⟨w, hcolon⟩ := (gives_expect _ _ _ _).mp hcolon
    rw [Parsed.gives_loose, Parsed.gives_map] at h
    obtain ⟨⟨type, v⟩, htype, rfl⟩ := h
    obtain ⟨symbol, hsymbol, htype⟩ := (gives_expectAmong _ _ _ _ _).mp htype
    exact ⟨_, hname.cons (hcolon.cons htype), .mk ((variableType_iff _ _).mpr hsymbol)⟩
  · rintro ⟨ts, hreads, hparameter⟩
    cases hparameter with
    | @mk name y w v symbol type hsymbol =>
      obtain ⟨q₁, hname, hreads⟩ := (reads_cons _ _ _ _).mp hreads
      obtain ⟨q₂, hcolon, htype⟩ := (reads_cons _ _ _ _).mp hreads
      obtain ⟨named, hnamed, hname⟩ := (started_identifier? _ _ _ _).mpr hname
      have hcolon := (gives_expect q₁ .colon () q₂).mpr ⟨w, hcolon⟩
      have htype := (gives_expectAmong q₂ variableTypes type v q).mpr
        ⟨symbol, (variableType_iff _ _).mp hsymbol, htype⟩
      refine ⟨named, hnamed, ?_⟩
      rw [Parsed.gives_andThen]
      refine ⟨(name, y), q₁, hname.size_lt, hname, ?_⟩
      dsimp only
      rw [Parsed.gives_loose, Parsed.gives_andThen]
      refine ⟨(), q₂, hcolon.size_lt, hcolon, ?_⟩
      rw [Parsed.gives_loose, Parsed.gives_map]
      exact ⟨(type, v), htype, rfl⟩

/-- A parameter is absent exactly if the current token is no name, and
then the parser is as it was. -/
theorem parameter?_eq_absent_iff (p q : Parser σ) (h : q.size ≤ p.size) :
    p.parameter? = .absent q h ↔ q = p ∧ p.current.lexeme.name? = none := by
  rw [parameter?, Attempt.map_eq_absent_iff, identifier?_eq_absent_iff]

/-- A parameter may follow others if its name is new. -/
theorem nodup_append_parameter {before : List Parameter} {x : Parameter}
    (hbefore : (before.map Parameter.name).Nodup) :
    ((before ++ [x]).map Parameter.name).Nodup ↔
      ¬ (before.any fun b => b.name == x.name) = true := by
  rw [List.map_append, List.nodup_append]
  simp only [hbefore, List.any_eq_true, beq_iff_eq, List.map_cons, List.map_nil, true_and,
    List.mem_map, List.mem_singleton, not_exists, not_and]
  constructor
  · rintro ⟨-, h⟩ b hb hbx
    exact h b.name ⟨b, hb, rfl⟩ x.name rfl hbx
  · intro h
    refine ⟨by simp, ?_⟩
    rintro _ ⟨b, hb, rfl⟩ _ rfl
    exact h b hb

/-- What is read behind the first parameter are further ones, and all
names are different. -/
theorem parametersRest_sound (function : String) (before : List Parameter)
    (hbefore : (before.map Parameter.name).Nodup) (p : Parser σ) (xs : List Parameter)
    (q : Parser σ) (h : (parametersRest function before p).Gives xs q) :
    ∃ ts ys, xs = before ++ ys ∧ p.Reads ts q ∧ FurtherParameters ts ys ∧
      (xs.map Parameter.name).Nodup := by
  -- The names in front grow by one with each step, and stay different.
  induction hn : p.size using Nat.strongRecOn generalizing p before with
  | ind n ih =>
    rw [parametersRest] at h
    split at h
    · rename_i habsent
      obtain ⟨rfl, -⟩ := (acceptSymbol?_only_eq_absent_iff _ _ _ _).mp habsent
      obtain ⟨rfl, rfl⟩ := (Parsed.gives_done _ _ _ _ _).mp h
      exact ⟨[], [], by simp, rfl, .nil, hbefore⟩
    · rename_i comma hcomma
      rw [Parsed.gives_loose, Parsed.gives_andThen] at h
      obtain ⟨⟨_, y⟩, q₁, hq₁, hy, h⟩ := h
      have hy := (started_acceptSymbol?_only _ _ _ _ _).mp ⟨comma, hcomma, hy⟩
      split at h
      · rw [Parsed.gives_error] at h
        exact h.elim
      · rename_i read hread
        rw [Parsed.gives_loose, Parsed.gives_andThen] at h
        obtain ⟨x, q₂, hq₂, hx, h⟩ := h
        obtain ⟨ts, hts, hparameter⟩ := (started_parameter?_iff _ _ _).mp ⟨read, hread, hx⟩
        dsimp only at h
        split at h
        · rw [Parsed.gives_error] at h
          exact h.elim
        · rename_i hnew
          obtain ⟨us, ys, rfl, hus, hfurther, hnodup⟩ := ih q₂.size (by omega) (before ++ [x])
            ((nodup_append_parameter hbefore).mpr hnew) q₂ h rfl
          exact ⟨_, x :: ys, by simp, hy.cons (hts.trans hus), .cons hparameter hfurther, hnodup⟩

/-- Further parameters are read to the end, if all names are different. -/
theorem parametersRest_complete (function : String) (before : List Parameter) (p : Parser σ)
    (ts : List Token) (ys : List Parameter) (q : Parser σ) (hreads : p.Reads ts q)
    (hfurther : FurtherParameters ts ys)
    (hnodup : ((before ++ ys).map Parameter.name).Nodup)
    (hend : q.current.lexeme ≠ .symbol .comma) :
    (parametersRest function before p).Gives (before ++ ys) q := by
  induction ys generalizing before p ts with
  | nil =>
    cases hfurther
    rw [reads_nil] at hreads
    subst hreads
    rw [parametersRest, (acceptSymbol?_only_eq_absent_iff q .comma q q.le_refl).mpr ⟨rfl, hend⟩]
    simp
  | cons x ys ih =>
    cases hfurther with
    | @cons y ts us _ _ hparameter hfurther =>
      obtain ⟨q₁, hy, hreads⟩ := (reads_cons _ _ _ _).mp hreads
      obtain ⟨q₂, hts, hus⟩ := (reads_append _ _ _ _).mp hreads
      obtain ⟨comma, hcomma, hy⟩ := (started_acceptSymbol?_only p .comma () y q₁).mpr hy
      obtain ⟨read, hread, hx⟩ := (started_parameter?_iff q₁ x q₂).mpr ⟨ts, hts, hparameter⟩
      have happend : before ++ x :: ys = before ++ [x] ++ ys := by simp
      rw [happend] at hnodup ⊢
      -- The names up to `x` are different, so `x` is not refused.
      have hupto : ((before ++ [x]).map Parameter.name).Nodup := by
        rw [List.map_append] at hnodup
        exact (List.nodup_append.mp hnodup).1
      have hbefore : (before.map Parameter.name).Nodup := by
        rw [List.map_append] at hupto
        exact (List.nodup_append.mp hupto).1
      have hnew := (nodup_append_parameter hbefore).mp hupto
      rw [parametersRest, hcomma]
      simp only [Parsed.gives_loose]
      rw [Parsed.gives_andThen]
      refine ⟨((), y), q₁, hy.size_lt, hy, ?_⟩
      simp only [hread, Parsed.gives_loose]
      rw [Parsed.gives_andThen]
      refine ⟨x, q₂, hx.size_lt, hx, ?_⟩
      simp only [hnew]
      exact ih (before ++ [x]) q₂ us hus hfurther hnodup

/-- The parameters of a function, up to the closing parenthesis. -/
theorem parameters_then_iff (function : String) (p : Parser σ) (xs : List Parameter)
    (q : Parser σ) :
    (∃ r z, (p.parameters function).Gives xs r ∧ r.Reads [mark .rightParen z] q) ↔
      ∃ ts z, p.Reads (ts ++ [mark .rightParen z]) q ∧ Parameters ts xs ∧
        (xs.map Parameter.name).Nodup := by
  rw [parameters]
  constructor
  · rintro ⟨r, z, h, hz⟩
    split at h
    · rename_i habsent
      obtain ⟨rfl, -⟩ := (parameter?_eq_absent_iff _ _ _).mp habsent
      obtain ⟨rfl, rfl⟩ := (Parsed.gives_done _ _ _ _ _).mp h
      exact ⟨[], z, hz, .none, List.nodup_nil⟩
    · rename_i read hread
      rw [Parsed.gives_loose, Parsed.gives_andThen] at h
      obtain ⟨x, q₁, hq₁, hx, h⟩ := h
      obtain ⟨ts, hts, hparameter⟩ := (started_parameter?_iff _ _ _).mp ⟨read, hread, hx⟩
      obtain ⟨us, ys, rfl, hus, hfurther, hnodup⟩ :=
        parametersRest_sound function [x] (by simp) q₁ xs r h
      exact ⟨ts ++ us, z, (hts.trans hus).trans hz, .some hparameter hfurther, hnodup⟩
  · rintro ⟨ts, z, hreads, hparameters, hnodup⟩
    obtain ⟨r, hts, hz⟩ := (reads_append _ _ _ _).mp hreads
    refine ⟨r, z, ?_, hz⟩
    cases hparameters with
    -- The closing parenthesis is no name, so no parameter is found.
    | none =>
      rw [reads_nil] at hts
      subst hts
      rw [(parameter?_eq_absent_iff r r r.le_refl).mpr ⟨rfl, by rw [hz.current]; rfl⟩]
      exact (Parsed.gives_done _ _ _ _ _).mpr ⟨rfl, rfl⟩
    | @some ts us x ys hparameter hfurther =>
      obtain ⟨q₁, hts, hus⟩ := (reads_append _ _ _ _).mp hts
      obtain ⟨read, hread, hx⟩ := (started_parameter?_iff p x q₁).mpr ⟨ts, hts, hparameter⟩
      have hrest := parametersRest_complete function [x] q₁ us ys r hus hfurther hnodup
        (by simp [hz.current])
      rw [hread]
      simp only [Parsed.gives_loose]
      rw [Parsed.gives_andThen]
      exact ⟨x, q₁, hx.size_lt, hx, hrest⟩

/-! ### Functions -/

omit [TokenSource σ] in
/-- A parser outside of loops is the same outside of loops. -/
theorem outsideLoops_eq_self {p : Parser σ} (h : p.loops = 0) : p.outsideLoops = p := by
  cases p
  cases h
  rfl

/-- What is read outside of all loops are the same tokens. -/
theorem outsideLoops_reads_iff (p q : Parser σ) (ts : List Token) :
    p.outsideLoops.Reads ts q ↔ ∃ r, p.Reads ts r ∧ q = r.outsideLoops :=
  withLoops_reads_iff p q 0 ts

/-- Reading is the same outside of loops. -/
theorem Reads.outsideLoops {p q : Parser σ} {ts : List Token} (h : p.Reads ts q) :
    p.outsideLoops.Reads ts q.outsideLoops :=
  (outsideLoops_reads_iff p _ ts).mpr ⟨q, h, rfl⟩

/-- The body of a function is read outside of all loops: its statements,
in braces, whose jumps stay inside. -/
theorem gives_expectFunctionBody (name : String) (p : Parser σ) (ss : List Stmt) (x : Position)
    (q : Parser σ) :
    (expectFunctionBody name p.outsideLoops).Gives (ss, x) q ↔
      ∃ ts y, p.outsideLoops.Reads (mark .leftBrace x :: (ts ++ [mark .rightBrace y])) q ∧
        Statements ts ss ∧ jumpsStayAll false ss = true := by
  rw [expectFunctionBody, Parsed.gives_orError, started_functionBody?_iff]
  rfl

/-- A function is read only where one is spelled, and it is well formed. -/
theorem function?_sound (p : Parser σ) (f : FunctionDecl) (q : Parser σ)
    (h : Started p.function? f q) :
    ∃ ts, p.outsideLoops.Reads ts q ∧ Function ts f ∧ f.WellFormed := by
  rw [function?, Started.map_iff] at h
  obtain ⟨named, hnamed, h⟩ := h
  rw [Parsed.gives_andThen] at h
  obtain ⟨⟨name, x⟩, q₁, hq₁, hname, h⟩ := h
  have hname := (started_identifier? _ _ _ _).mp ⟨named, hnamed, hname⟩
  rw [Parsed.gives_loose, Parsed.gives_andThen] at h
  obtain ⟨_, q₂, hq₂, hopen, h⟩ := h
  obtain ⟨y, hopen⟩ := (gives_expect _ _ _ _).mp hopen
  rw [Parsed.gives_andThen] at h
  obtain ⟨params, q₃, hq₃, hparams, h⟩ := h
  rw [Parsed.gives_loose, Parsed.gives_andThen] at h
  obtain ⟨_, q₄, hq₄, hclose, h⟩ := h
  obtain ⟨z, hclose⟩ := (gives_expect _ _ _ _).mp hclose
  obtain ⟨ts, z, hts, hparameters, hnodup⟩ :=
    (parameters_then_iff name q₂ params q₄).mp ⟨q₃, z, hparams, hclose⟩
  rw [Parsed.gives_loose, Parsed.gives_andThen] at h
  obtain ⟨_, q₅, hq₅, hreturns, h⟩ := h
  obtain ⟨w, hreturns⟩ := (gives_expect _ _ _ _).mp hreturns
  rw [Parsed.gives_loose, Parsed.gives_andThen] at h
  obtain ⟨⟨result, v⟩, q₆, hq₆, hresult, h⟩ := h
  obtain ⟨symbol, hsymbol, hresult⟩ := (gives_expectAmong _ _ _ _ _).mp hresult
  dsimp only at h
  rw [Parsed.gives_loose] at h
  obtain ⟨⟨ss, a⟩, hbody, rfl⟩ := (Parsed.gives_map _ _ _ _).mp h
  obtain ⟨us, b, hus, hstatements, hjumps⟩ := (gives_expectFunctionBody _ _ _ _ _).mp hbody
  have hhead := hname.cons (hopen.cons (hts.trans (hreturns.cons hresult)))
  refine ⟨_, hhead.outsideLoops.trans hus, ?_, hnodup, hjumps⟩
  have := @Function.mk name x y z w v a b symbol result ts us params ss hparameters
    ((resultType_iff _ _).mpr hsymbol) hstatements
  simpa using this

/-- A function that is spelled and well formed is read. -/
theorem function?_complete (p : Parser σ) (ts : List Token) (f : FunctionDecl) (q : Parser σ)
    (hreads : p.outsideLoops.Reads ts q) (hfunction : Function ts f) (hf : f.WellFormed) :
    Started p.function? f q := by
  cases hfunction with
  | @mk name x y z w v a b symbol result ts us params ss hparameters hsymbol hstatements =>
    -- The signature is read with the count of loops that the parser has, the body with none. The
    -- tokens are the same in both, so the cut is made where the body starts.
    have hsplit : p.outsideLoops.Reads ((word name x :: mark .leftParen y ::
        ((ts ++ [mark .rightParen z]) ++ [mark .returnsWord w, mark symbol v])) ++
        (mark .leftBrace a :: (us ++ [mark .rightBrace b]))) q := by
      simpa using hreads
    obtain ⟨r, hhead, hus⟩ := (reads_append _ _ _ _).mp hsplit
    obtain ⟨q₆, hsignature, rfl⟩ := (outsideLoops_reads_iff _ _ _).mp hhead
    obtain ⟨q₁, hname, hhead⟩ := (reads_cons _ _ _ _).mp hsignature
    obtain ⟨q₂, hopen, hhead⟩ := (reads_cons _ _ _ _).mp hhead
    obtain ⟨q₄, hts, hhead⟩ := (reads_append _ _ _ _).mp hhead
    obtain ⟨q₅, hreturns, hresult⟩ := (reads_cons _ _ _ _).mp hhead
    obtain ⟨named, hnamed, hname⟩ := (started_identifier? _ _ _ _).mpr hname
    have hopen := (gives_expect q₁ .leftParen () q₂).mpr ⟨y, hopen⟩
    obtain ⟨q₃, z, hparams, hclose⟩ := (parameters_then_iff name q₂ params q₄).mpr
      ⟨ts, z, hts, hparameters, hf.parameters_nodup⟩
    have hclose := (gives_expect q₃ .rightParen () q₄).mpr ⟨z, hclose⟩
    have hreturns := (gives_expect q₄ .returnsWord () q₅).mpr ⟨w, hreturns⟩
    have hresult := (gives_expectAmong q₅ resultTypes result v q₆).mpr
      ⟨symbol, (resultType_iff _ _).mp hsymbol, hresult⟩
    have hbody := (gives_expectFunctionBody name q₆ ss a q).mpr
      ⟨us, b, hus, hstatements, hf.jumps_stay⟩
    rw [function?, Started.map_iff]
    refine ⟨named, hnamed, ?_⟩
    rw [Parsed.gives_andThen]
    refine ⟨(name, x), q₁, hname.size_lt, hname, ?_⟩
    dsimp only
    rw [Parsed.gives_loose, Parsed.gives_andThen]
    refine ⟨(), q₂, hopen.size_lt, hopen, ?_⟩
    rw [Parsed.gives_andThen]
    refine ⟨params, q₃, hparams.size_lt, hparams, ?_⟩
    rw [Parsed.gives_loose, Parsed.gives_andThen]
    refine ⟨(), q₄, hclose.size_lt, hclose, ?_⟩
    rw [Parsed.gives_loose, Parsed.gives_andThen]
    refine ⟨(), q₅, hreturns.size_lt, hreturns, ?_⟩
    rw [Parsed.gives_loose, Parsed.gives_andThen]
    refine ⟨(result, v), q₆, hresult.size_lt, hresult, ?_⟩
    dsimp only
    rw [Parsed.gives_loose]
    exact (Parsed.gives_map _ _ _ _).mpr ⟨(ss, a), hbody, rfl⟩

/-- A function is absent exactly if the current token is no name, and then
the parser is as it was. -/
theorem function?_eq_absent_iff (p q : Parser σ) (h : q.size ≤ p.size) :
    p.function? = .absent q h ↔ q = p ∧ p.current.lexeme.name? = none := by
  rw [function?, Attempt.map_eq_absent_iff, identifier?_eq_absent_iff]

/-! ### Programs -/

/-- What is read are functions, each well formed, and they are added in
order. -/
theorem functions_sound (before : Program) (p : Parser σ) (program : Program) (q : Parser σ)
    (h : (functions before p).Gives program q) :
    ∃ ts fs, program.functions = before.functions ++ fs ∧
      p.outsideLoops.Reads ts q.outsideLoops ∧ Functions ts fs ∧ ∀ f ∈ fs, f.WellFormed := by
  induction hn : p.size using Nat.strongRecOn generalizing p before with
  | ind n ih =>
    rw [functions] at h
    split at h
    · rename_i habsent
      obtain ⟨rfl, -⟩ := (function?_eq_absent_iff _ _ _).mp habsent
      obtain ⟨rfl, rfl⟩ := (Parsed.gives_done _ _ _ _ _).mp h
      exact ⟨[], [], by simp, rfl, .nil, by simp⟩
    · rename_i read hread
      rw [Parsed.gives_loose, Parsed.gives_andThen] at h
      obtain ⟨f, q₁, hq₁, hf, h⟩ := h
      obtain ⟨ts, hts, hfunction, hwell⟩ := function?_sound p f q₁ ⟨read, hread, hf⟩
      split at h
      · rw [Parsed.gives_error] at h
        exact h.elim
      · rename_i next hadd
        rw [Program.add_eq_ok_iff] at hadd
        obtain ⟨us, fs, hprogram, hus, hfunctions, hwells⟩ := ih q₁.size (by omega) next q₁ h rfl
        -- Behind a function the parser is outside of all loops already.
        rw [outsideLoops_eq_self hts.loops_eq] at hus
        refine ⟨ts ++ us, f :: fs, by simp [hprogram, hadd], hts.trans hus,
          .cons hfunction hfunctions, ?_⟩
        simpa using ⟨hwell, hwells⟩

/-- Functions that are spelled and well formed are read up to a token that
is no name. -/
theorem functions_complete (before : Program) (p : Parser σ) (ts : List Token)
    (fs : List FunctionDecl) (program : Program) (r : Parser σ)
    (hreads : p.outsideLoops.Reads ts r) (hend : r.current.lexeme.name? = none)
    (hfunctions : Functions ts fs) (hprogram : program.functions = before.functions ++ fs)
    (hwells : ∀ f ∈ fs, f.WellFormed) :
    ∃ q, (functions before p).Gives program q ∧ q.outsideLoops = r := by
  induction fs generalizing before p ts with
  | nil =>
    cases hfunctions
    rw [reads_nil] at hreads
    subst hreads
    refine ⟨p, ?_, rfl⟩
    rw [functions, (function?_eq_absent_iff p p p.le_refl).mpr ⟨rfl, hend⟩]
    rw [List.append_nil] at hprogram
    exact (Parsed.gives_done _ _ _ _ _).mpr ⟨Program.eq_of_functions_eq hprogram, rfl⟩
  | cons f fs ih =>
    cases hfunctions with
    | @cons ts us _ _ hfunction hfunctions =>
      obtain ⟨q₁, hts, hus⟩ := (reads_append _ _ _ _).mp hreads
      obtain ⟨read, hread, hf⟩ := function?_complete p ts f q₁ hts hfunction (hwells f (by simp))
      -- The names of the whole program are different, so that of `f` is new.
      have hnew : ¬ before.Defines f.name := by
        have hdistinct := program.distinct
        rw [hprogram, List.map_append, List.nodup_append] at hdistinct
        intro hdefines
        exact hdistinct.2.2 f.name hdefines f.name (by simp) rfl
      obtain ⟨next, hadd, hnext⟩ := Program.add_of_not_defines hnew
      have hzero : q₁.loops = 0 := hts.loops_eq
      obtain ⟨q, hq, hr⟩ := ih next q₁ us (by rwa [outsideLoops_eq_self hzero])
        hfunctions (by simp [hprogram, hnext]) (fun g hg => hwells g (by simp [hg]))
      refine ⟨q, ?_, hr⟩
      rw [functions, hread]
      simp only [Parsed.gives_loose]
      rw [Parsed.gives_andThen]
      refine ⟨f, q₁, hf.size_lt, hf, ?_⟩
      rw [hadd]
      exact hq

/-- The end of the text is read exactly if it is the current token. -/
theorem gives_expectEnd (p : Parser σ) (t : Token) (q : Parser σ) :
    p.expectEnd.Gives t q ↔ p.current.lexeme = .endOfText ∧ t = p.current ∧ p.Moves q := by
  unfold expectEnd
  split
  · rename_i hend
    rw [gives_advance]
    simp [hend]
  · rename_i hend
    simpa using fun h => absurd h hend

/-- A program is read exactly where the grammar derives its functions up
to the end of the text. -/
theorem program_iff (p : Parser σ) (program : Program) :
    p.program.1 = .ok program ↔
      ∃ ts q r, p.outsideLoops.Reads ts q ∧ q.current.lexeme = .endOfText ∧ q.Moves r ∧
        Functions ts program.functions ∧ ∀ f ∈ program.functions, f.WellFormed := by
  -- The result of `program` leaves out where the reading ended.
  have hgives : p.program.1 = .ok program ↔ ∃ s, ((functions .empty p).andThen fun program q _ =>
      q.expectEnd.map fun _ => program).Gives program s := by
    constructor
    · intro h
      exact ⟨p.program.2, Prod.ext h rfl⟩
    · rintro ⟨s, h⟩
      exact congrArg Prod.fst h
  rw [hgives]
  constructor
  · rintro ⟨s, h⟩
    rw [Parsed.gives_andThen] at h
    obtain ⟨program', q, hq, hfunctions, h⟩ := h
    rw [Parsed.gives_map] at h
    obtain ⟨t, ht, rfl⟩ := h
    obtain ⟨hend, -, hmoves⟩ := (gives_expectEnd _ _ _).mp ht
    obtain ⟨ts, fs, hfs, hts, hderived, hwells⟩ := functions_sound .empty p program q hfunctions
    have hfs : program.functions = fs := by simpa using hfs
    rw [hfs]
    exact ⟨ts, q.outsideLoops, s.outsideLoops, hts, hend,
      (withLoops_moves_iff q _ 0).mpr ⟨s, hmoves, rfl⟩, hderived, hwells⟩
  · rintro ⟨ts, r, s, hts, hend, hmoves, hderived, hwells⟩
    obtain ⟨q, hq, rfl⟩ := functions_complete .empty p ts program.functions program r hts
      (by rw [hend]; rfl) hderived (by simp) hwells
    obtain ⟨s, hs, rfl⟩ := (withLoops_moves_iff q s 0).mp hmoves
    refine ⟨s, ?_⟩
    rw [Parsed.gives_andThen]
    refine ⟨program, q, hq.size_lt, hq, ?_⟩
    rw [Parsed.gives_map]
    exact ⟨q.current, (gives_expectEnd _ _ _).mpr ⟨hend, rfl, hs⟩, rfl⟩

/-! ### Lists of tokens -/

/-- The parser has yet to read the tokens `ts`, up to the end token `e`. -/
def Awaits (p : Parser (List Token)) (ts : List Token) (e : Token) : Prop :=
  nextOfList (ts ++ [e]) = (.ok p.current, p.source)

/-- At the end of a list of tokens there is only the last one. -/
theorem awaits_nil_iff {e : Token} (he : e.weight = 0) (p : Parser (List Token)) :
    p.Awaits [] e ↔ p.current = e ∧ p.source = [e] := by
  simp [Awaits, nextOfList, he, eq_comm]

/-- In front of the end, the first token is the current one and the others
are still in the source. -/
theorem awaits_cons_iff {t : Token} (ht : t.weight = 1) (ts : List Token) (e : Token)
    (p : Parser (List Token)) :
    p.Awaits (t :: ts) e ↔ p.current = t ∧ p.source = ts ++ [e] := by
  simp [Awaits, nextOfList, ht, eq_comm]

/-- A list with an end token always gives a token. -/
theorem exists_awaits (ts : List Token) (e : Token) (n : Nat) :
    ∃ p : Parser (List Token), p.Awaits ts e ∧ p.loops = n := by
  cases ts with
  | nil => exact ⟨⟨e, _, n⟩, rfl, rfl⟩
  | cons t ts => exact ⟨⟨t, _, n⟩, rfl, rfl⟩

/-- The parser moves one token further. -/
theorem moves_iff_awaits {ts : List Token} {e : Token} {p : Parser (List Token)}
    (hsource : p.source = ts ++ [e]) (q : Parser (List Token)) :
    p.Moves q ↔ q.Awaits ts e ∧ q.loops = p.loops := by
  unfold Moves Awaits
  rw [hsource]
  constructor
  · rintro ⟨t, rest, hnext, rfl⟩
    exact ⟨hnext, rfl⟩
  · rintro ⟨hnext, hloops⟩
    exact ⟨q.current, q.source, hnext, by rw [← hloops]⟩

/-- What a parser of a list reads are the first tokens that it awaits. -/
theorem reads_iff_awaits {e : Token} (he : e.weight = 0) {ts : List Token}
    (hts : ∀ t ∈ ts, t.weight = 1) {p : Parser (List Token)} (hp : p.Awaits ts e)
    (us : List Token) (q : Parser (List Token)) :
    p.Reads us q ↔ ∃ vs, ts = us ++ vs ∧ q.Awaits vs e ∧ q.loops = p.loops := by
  induction us generalizing p ts with
  | nil =>
    constructor
    · rintro rfl
      exact ⟨ts, rfl, hp, rfl⟩
    · -- A parser is determined by what it awaits and its count of loops.
      rintro ⟨vs, rfl, hq, hloops⟩
      have hnext := hp.symm.trans hq
      cases p
      cases q
      cases hloops
      cases hnext
      rfl
  | cons u us ih =>
    cases ts with
    | nil =>
      -- The end token has no weight, so it is not among the tokens that are read.
      rw [awaits_nil_iff he] at hp
      constructor
      · rintro ⟨hu, hweight, -⟩
        rw [← hu, hp.1, he] at hweight
        contradiction
      · rintro ⟨vs, h, -⟩
        contradiction
    | cons t ts =>
      have ht := hts t (by simp)
      rw [awaits_cons_iff ht] at hp
      have hmoves := moves_iff_awaits hp.2
      have htail : ∀ t ∈ ts, t.weight = 1 := fun t ht => hts t (by simp [ht])
      constructor
      · rintro ⟨hu, -, r, hr, h⟩
        obtain ⟨hr, hloops⟩ := (hmoves r).mp hr
        obtain ⟨vs, rfl, hq, hloops'⟩ := (ih htail hr).mp h
        exact ⟨vs, by rw [← hu, hp.1]; rfl, hq, hloops'.trans hloops⟩
      · rintro ⟨vs, h, hq, hloops⟩
        cases h
        obtain ⟨r, hr, hloops'⟩ := exists_awaits (us ++ vs) e p.loops
        exact ⟨hp.1, ht, r, (hmoves r).mpr ⟨hr, hloops'⟩,
          (ih htail hr).mpr ⟨vs, rfl, hq, hloops.trans hloops'.symm⟩⟩

end Parser

namespace Program

/-- Reading a list of tokens gives the functions `fs`, in their order,
exactly if the grammar derives `fs` from the tokens, the names of the
functions are different, and so are the parameters of each function, and
each `break` and `continue` has its loop. -/
theorem ofSource_list_iff_functions (ts : List Token) (hts : ∀ t ∈ ts, t.lexeme ≠ .endOfText)
    (x : Position) (fs : List FunctionDecl) :
    (∃ program, ofSource (ts ++ [⟨.endOfText, x⟩]) = .ok program ∧ program.functions = fs) ↔
      Functions ts fs ∧ (fs.map FunctionDecl.name).Nodup ∧ ∀ f ∈ fs, f.WellFormed := by
  have hweights : ∀ t ∈ ts, t.weight = 1 := fun t ht => Token.weight_eq_one_of_ne (hts t ht)
  obtain ⟨p, hp, hloops⟩ := Parser.exists_awaits ts ⟨.endOfText, x⟩ 0
  have hstart : Parser.start (ts ++ [⟨.endOfText, x⟩]) = .ok p := by
    have hnext : TokenSource.next (ts ++ [⟨.endOfText, x⟩]) = (.ok p.current, p.source) := hp
    rw [Parser.start, hnext, ← hloops]
  have hreads := Parser.reads_iff_awaits rfl hweights hp
  -- The names of the functions of a program are different by its type, so they enter only below.
  have hprogram : ∀ program, ofSource (ts ++ [⟨.endOfText, x⟩]) = .ok program ↔
      Functions ts program.functions ∧ ∀ f ∈ program.functions, f.WellFormed := by
    intro program
    rw [ofSource, hstart]
    dsimp only
    rw [Parser.program_iff, Parser.outsideLoops_eq_self hloops]
    constructor
    · rintro ⟨us, q, r, hus, hend, -, hderived, hwells⟩
      obtain ⟨vs, rfl, hq, -⟩ := (hreads us q).mp hus
      -- The end of the text is the current token, so all others have been read.
      cases vs with
      | nil =>
        rw [List.append_nil]
        exact ⟨hderived, hwells⟩
      | cons v vs =>
        rw [Parser.awaits_cons_iff (hweights v (by simp))] at hq
        exact absurd (hq.1 ▸ hend) (hts v (by simp))
    · rintro ⟨hderived, hwells⟩
      have hlast : Parser.Awaits ⟨⟨.endOfText, x⟩, [⟨.endOfText, x⟩], 0⟩ [] ⟨.endOfText, x⟩ := rfl
      refine ⟨ts, _, ⟨⟨.endOfText, x⟩, [⟨.endOfText, x⟩], 0⟩,
        (hreads ts _).mpr ⟨[], by simp, hlast, hloops.symm⟩, rfl, ?_, hderived, hwells⟩
      exact (@Parser.moves_iff_awaits [] _ _ rfl _).mpr ⟨hlast, rfl⟩
  constructor
  · rintro ⟨program, hok, rfl⟩
    obtain ⟨hderived, hwells⟩ := (hprogram program).mp hok
    exact ⟨hderived, program.distinct, hwells⟩
  · rintro ⟨hderived, hdistinct, hwells⟩
    obtain ⟨program, rfl⟩ := exists_functions_eq hdistinct
    exact ⟨program, (hprogram program).mpr ⟨hderived, hwells⟩, rfl⟩

/-- The tokens of `main() returns int { if (a) if (b) return 1; else
return 2; }` are read, and the `else` goes to the inner `if`. -/
theorem ofSource_list_nested_if :
    let x := Position.start
    let inner : Stmt := .ifStmt (.name "b" x) (.returnStmt (some (.int 1 x)) x)
      (some (.returnStmt (some (.int 2 x)) x)) x
    ∃ program, ofSource
      [word "main" x, mark .leftParen x, mark .rightParen x, mark .returnsWord x, mark .intWord x,
        mark .leftBrace x, mark .ifWord x, mark .leftParen x, word "a" x, mark .rightParen x,
        mark .ifWord x, mark .leftParen x, word "b" x, mark .rightParen x, mark .returnWord x,
        ⟨.int 1, x⟩, mark .semicolon x, mark .elseWord x, mark .returnWord x, ⟨.int 2, x⟩,
        mark .semicolon x, mark .rightBrace x, ⟨.endOfText, x⟩] = .ok program ∧
      program.functions =
        [⟨"main", [], .int, [.ifStmt (.name "a" x) inner none x], x, x⟩] := by
  intro x inner
  have hname : ∀ s, Derives .top [word s x] (.name s x) := fun s => .of_primary (.name s x)
  have hreturn : ∀ n, Instruction [mark .returnWord x, ⟨.int n, x⟩, mark .semicolon x]
      (.returnStmt (some (.int n x)) x) :=
    fun n => .statement (.leaveWith (.of_primary (.int n x)))
  have hinner := Statement.ifElse (p := x) (q := x) (r := x) (w := x) (hname "b") (hreturn 1) rfl
    (hreturn 2)
  have houter := Statement.ifThen (p := x) (q := x) (r := x) (hname "a") (.statement hinner)
  have hfunction := @Function.mk "main" x x x x x x x .intWord .int [] _ [] _ .none
    (.variable .int) (.cons houter .nil)
  exact (ofSource_list_iff_functions
    [word "main" x, mark .leftParen x, mark .rightParen x, mark .returnsWord x, mark .intWord x,
      mark .leftBrace x, mark .ifWord x, mark .leftParen x, word "a" x, mark .rightParen x,
      mark .ifWord x, mark .leftParen x, word "b" x, mark .rightParen x, mark .returnWord x,
      ⟨.int 1, x⟩, mark .semicolon x, mark .elseWord x, mark .returnWord x, ⟨.int 2, x⟩,
      mark .semicolon x, mark .rightBrace x] (by simp) x _).mpr
    ⟨.cons hfunction .nil, by simp, by simpa using ⟨by simp, rfl⟩⟩

end Program

end ScalarScript
