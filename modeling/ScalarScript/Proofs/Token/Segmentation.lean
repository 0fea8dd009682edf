import ScalarScript.Proofs.Token.Spelling

/-!
# `ScalarScript.Proofs.Token.Segmentation`: a scanner splits its text

`tokens_splits` is the main result: if a text can be split into tokens at
all, the tokens of the scanner are its spellings, separated by blanks
only, each as long as it can be and each at the place of its first
character. Nothing of the text is lost.

`Cursor.Passes c cs c'` says that the cursor `c'` stands behind the
characters `cs` of `c`, and at their place. Each reader of the scanner
has one lemma that says which characters it passes and what they spell;
`lexemeAt_spells` joins them, and one more token is one more step of the
induction.
-/

set_option autoImplicit false

namespace ScalarScript

open Spelling

/-! ### Cursors that move on -/

namespace Cursor

/-- The cursor `c'` stands behind the characters `cs` of `c`. -/
structure Passes (c : Cursor) (cs : List Char) (c' : Cursor) : Prop where
  rest_eq : c.rest = cs ++ c'.rest
  position_eq : c'.position = c.position.after cs

/-- A cursor that passes characters and then others passes them all. -/
theorem Passes.trans {c c' c'' : Cursor} {cs ds : List Char} (h : c.Passes cs c')
    (h' : c'.Passes ds c'') : c.Passes (cs ++ ds) c'' where
  rest_eq := by rw [h.rest_eq, h'.rest_eq, List.append_assoc]
  position_eq := by rw [h'.position_eq, h.position_eq, Position.after_append]

/-- A cursor that stood behind some characters stands behind those that it
passed, too. -/
theorem Passes.behind {c c' : Cursor} {before cs : List Char} (h : c.Passes cs c')
    (hc : c.position = .behind before) : c'.position = .behind (before ++ cs) := by
  rw [h.position_eq, hc, ← Position.start_after, ← Position.start_after, Position.after_append]

/-- Skipping passes the run of characters that is skipped. -/
theorem passes_skip (c : Cursor) (p : Char → Bool) : c.Passes (c.run p) (c.skip p) where
  rest_eq := (c.run_append_skip p).symm
  position_eq := rfl

/-- Dropping as many characters as a text has that the cursor is at. -/
theorem passes_drop {c : Cursor} {cs rest : List Char} (h : c.rest = cs ++ rest) :
    c.Passes cs (c.drop cs.length) where
  rest_eq := by simp [drop, h]
  position_eq := by simp [drop, h]

/-- Dropping one character passes it. -/
theorem passes_drop_one {c : Cursor} {first : Char} {rest : List Char}
    (h : c.rest = first :: rest) : c.Passes [first] (c.drop 1) :=
  @passes_drop c [first] rest h

/-- The characters of a run have the property. -/
theorem mem_run {c : Cursor} {p : Char → Bool} {d : Char} (h : d ∈ c.run p) : p d = true :=
  List.all_eq_true.mp List.all_takeWhile d h

/-- A run stops where its property does. -/
theorem not_of_mem_head?_skip {c : Cursor} {p : Char → Bool} {d : Char}
    (h : d ∈ (c.skip p).rest.head?) : p d = false := by
  have hnot := List.head?_dropWhile_not p c.rest
  have hhead : (c.rest.dropWhile p).head? = some d := h
  rwa [hhead] at hnot

/-- A run starts with its first character. -/
theorem run_of_cons {c : Cursor} {p : Char → Bool} {first : Char} {rest : List Char}
    (h : c.rest = first :: rest) (hp : p first = true) :
    c.run p = first :: rest.takeWhile p := by
  simp [run, h, hp]

end Cursor

/-! ### Numbers -/

/-- The reader of digits and the spelling of numbers count alike. -/
theorem Integer.ofDigits_eq_decimal (digits : List Char) :
    Integer.ofDigits digits = decimal digits := by
  -- The fold starts at any `n`, so that its steps can be taken one by one.
  have hfold : ∀ n, digits.foldl (fun n d => 10 * n + (d.toNat - '0'.toNat)) n =
      n * 10 ^ digits.length + decimal digits := by
    induction digits with
    | nil => simp [decimal]
    | cons d ds ih =>
      intro n
      rw [List.foldl_cons, ih, decimal, List.length_cons, Nat.pow_succ]
      rw [Nat.add_mul, Nat.mul_comm 10 n, Nat.mul_assoc, Nat.mul_comm 10, Nat.add_assoc]
  simpa [Integer.ofDigits] using hfold 0

/-- The 64-bit form of an integer is equal to it. -/
theorem Integer.toInt_of_ofInt? {z : Int} {n : Int64} (h : Integer.ofInt? z = some n) :
    n.toInt = z := by
  unfold Integer.ofInt? at h
  split at h
  · rename_i hrange
    cases h
    unfold Integer.least Integer.greatest at hrange
    exact Int64.toInt_ofInt_of_le (by omega) (by omega)
  · cases h

namespace Scanner

/-- A number that is closed has neither a digit nor a point behind it. -/
theorem closeNumber_eq_ok {start : Position} {value : TokenValue} {l : Lexeme} {c c' : Cursor}
    (h : closeNumber start value c = (.ok l, c')) :
    Lexeme.ofParts .number (some value) start = .ok l ∧ c' = c ∧
      ∀ d ∈ c.rest.head?, d.isDigit = false ∧ d ≠ '.' := by
  unfold closeNumber at h
  split at h
  · rename_i hnil
    injection h with hl hc
    exact ⟨hl, hc.symm, by simp [hnil]⟩
  · rename_i d rest hcons
    split at h
    · cases h
    · rename_i hd
      injection h with hl hc
      refine ⟨hl, hc.symm, ?_⟩
      simpa [hcons] using hd

/-- A fraction that is read is spelled by what was passed. -/
theorem fractionAt_spells {start : Position} {n : Int64} {c c' : Cursor} {l : Lexeme}
    {digits : List Char} (hdigits : Digits digits) (hn : n.toInt = decimal digits)
    (h : fractionAt start n c = (.ok l, c')) :
    ∃ fraction, c.Passes fraction c' ∧ Spells l (digits ++ '.' :: fraction) c'.rest.head? := by
  rw [fractionAt_eq] at h
  dsimp only at h
  split at h
  · cases h
  · rename_i hne
    obtain ⟨hl, rfl, hnext⟩ := closeNumber_eq_ok h
    cases hl
    exact ⟨c.run Char.isDigit, c.passes_skip _,
      .float hdigits hn hne (fun d hd => Cursor.mem_run hd) hnext⟩

/-- A number that is read is spelled by what was passed. -/
theorem numberAt_spells {c c' : Cursor} {l : Lexeme} {first : Char} {rest : List Char}
    (hfirst : c.rest = first :: rest) (hdigit : first.isDigit = true)
    (h : numberAt c = (.ok l, c')) :
    ∃ spelling, c.Passes spelling c' ∧ Spells l spelling c'.rest.head? := by
  have hpasses := c.passes_skip Char.isDigit
  unfold numberAt at h
  dsimp only at h
  split at h
  · cases h
  · rename_i hzeros
    have hdigits : Digits (c.run Char.isDigit) := by
      refine ⟨?_, fun d hd => Cursor.mem_run hd, ?_⟩
      · rw [Cursor.run_of_cons hfirst hdigit]
        simp
      · rwa [List.prefix_iff_eq_take, eq_comm]
    split at h
    · cases h
    · rename_i n hn
      have hn : n.toInt = decimal (c.run Char.isDigit) := by
        rw [Integer.toInt_of_ofInt? hn, Integer.ofDigits_eq_decimal]
      split at h
      · -- A point behind the digits: what follows must be a fraction.
        rename_i hpoint
        obtain ⟨tail, htail⟩ := List.head?_eq_some_iff.mp hpoint
        obtain ⟨fraction, hfraction, hspells⟩ := fractionAt_spells hdigits hn h
        have := hpasses.trans ((Cursor.passes_drop_one htail).trans hfraction)
        exact ⟨_, this, hspells⟩
      · obtain ⟨hl, rfl, hnext⟩ := closeNumber_eq_ok h
        cases hl
        exact ⟨_, hpasses, .int hdigits hn hnext⟩

/-! ### Strings -/

/-- The table has exactly the escapes. -/
theorem escape?_eq_some_iff (c d : Char) : escape? c = some d ↔ (c, d) ∈ escapes := by
  constructor
  · intro h
    unfold escape? at h
    split at h <;> cases h <;> decide
  · -- One case for each letter of the table.
    intro h
    simp only [escapes, List.mem_cons, Prod.mk.injEq, List.not_mem_nil, or_false] at h
    rcases h with ⟨rfl, rfl⟩ | ⟨rfl, rfl⟩ | ⟨rfl, rfl⟩ | ⟨rfl, rfl⟩ | ⟨rfl, rfl⟩ | ⟨rfl, rfl⟩ |
      ⟨rfl, rfl⟩ <;> rfl

/-- A backslash and a character decode to what they stand for. -/
theorem decodes_unescape {quote c : Char} {body cs : List Char} (h : Decodes quote body cs) :
    Decodes quote ('\\' :: c :: body) (unescape quote c ++ cs) := by
  unfold unescape
  split
  · rename_i hc
    rw [hc]
    exact .quote h
  · rename_i hc
    split
    · rename_i d hd
      exact .control hc ((escape?_eq_some_iff c d).mp hd) h
    · rename_i hnone
      refine .other hc (fun d hd => ?_) h
      rw [(escape?_eq_some_iff c d).mpr hd] at hnone
      cases hnone

/-- What is read with characters in front starts with these. -/
theorem prepend_eq_ok {cs ds : List Char} {r : Except TokenError (List Char) × Cursor}
    {c : Cursor} (h : prepend cs r = (.ok ds, c)) : ∃ es, r = (.ok es, c) ∧ ds = cs ++ es := by
  rcases r with ⟨_ | es, c'⟩
  · cases h
  · cases h
    exact ⟨es, rfl, rfl⟩

/-- The rest of a string is its inside and the quote that closes it. -/
theorem stringBody_decodes {opening : Position} {limit : Nat} {quote : Char} {room : Nat}
    {cs : List Char} {p : Position} {ds : List Char} {c : Cursor}
    (h : stringBody opening limit quote room cs p = (.ok ds, c)) :
    ∃ body, Cursor.Passes ⟨cs, p⟩ (body ++ [quote]) c ∧ Decodes quote body ds := by
  fun_induction stringBody opening limit quote room cs p generalizing ds with
  | case1 | case3 | case4 => cases h
  | case2 room rest p =>
    cases h
    exact ⟨[], ⟨rfl, rfl⟩, .nil⟩
  | case5 room p hroom e rest hquote ih =>
    -- A backslash takes the next character with it, whatever that is.
    obtain ⟨es, hes, rfl⟩ := prepend_eq_ok h
    obtain ⟨body, hpasses, hdecodes⟩ := ih hes
    refine ⟨'\\' :: e :: body, ⟨?_, ?_⟩, decodes_unescape hdecodes⟩
    · simpa using hpasses.rest_eq
    · simpa using hpasses.position_eq
  | case6 room c' rest p hquote hroom hslash ih =>
    obtain ⟨es, hes, rfl⟩ := prepend_eq_ok h
    obtain ⟨body, hpasses, hdecodes⟩ := ih hes
    refine ⟨c' :: body, ⟨?_, ?_⟩, .plain hquote hslash hdecodes⟩
    · simpa using hpasses.rest_eq
    · simpa using hpasses.position_eq

/-- A string that is read is spelled by what was passed. -/
theorem stringAt_spells {limit : Nat} {quote : Char} {c c' : Cursor} {l : Lexeme}
    {rest : List Char} (hquote : isQuote quote = true) (hfirst : c.rest = quote :: rest)
    (h : stringAt limit quote c = (.ok l, c')) :
    ∃ spelling, c.Passes spelling c' ∧ Spells l spelling c'.rest.head? := by
  unfold stringAt at h
  dsimp only at h
  generalize hbody : stringBody c.position limit quote limit (c.drop 1).rest (c.drop 1).position =
    read at h
  obtain ⟨_ | cs, c''⟩ := read
  · cases h
  · cases h
    obtain ⟨body, hpasses, hdecodes⟩ := stringBody_decodes hbody
    refine ⟨_, (Cursor.passes_drop_one hfirst).trans hpasses, .string ?_ hdecodes⟩
    simpa [isQuote] using hquote

/-! ### Words and marks -/

/-- A symbol is written as in the tables. -/
theorem mem_ofSymbol_iff (s : Symbol) (spelling : List Char) :
    spelling ∈ ofSymbol s ↔ (spelling, s) ∈ Symbol.marks ∨ (spelling, s) ∈ Symbol.words := by
  have htables : ∀ m ∈ Symbol.marks ++ Symbol.words, m.1 ∈ ofSymbol m.2 := by decide
  have hlisted : ∀ w ∈ ofSymbol s, (w, s) ∈ Symbol.marks ∨ (w, s) ∈ Symbol.words := by
    cases s <;> decide
  constructor
  · exact hlisted spelling
  · intro h
    exact htables (spelling, s) (List.mem_append.mpr h)

/-- Words that are symbols have only characters of words. -/
theorem isWordChar_of_mem_words {m : List Char × Symbol} (h : m ∈ Symbol.words) :
    ∀ c ∈ m.1, isWordChar c = true := by
  have hall : Symbol.words.all (fun m => m.1.all isWordChar) = true := by decide
  exact List.all_eq_true.mp (List.all_eq_true.mp hall m h)

/-- Marks have no characters of words. -/
theorem not_isWordChar_of_mem_marks {m : List Char × Symbol} (h : m ∈ Symbol.marks) :
    ∀ c ∈ m.1, isWordChar c = false := by
  have hall : Symbol.marks.all (fun m => m.1.all (!isWordChar ·)) = true := by decide
  intro c hc
  simpa using List.all_eq_true.mp (List.all_eq_true.mp hall m h) c hc

/-- A word that is read is spelled by what was passed, as a symbol if it
is one. -/
theorem wordAt_spells {c : Cursor} {first : Char} {rest : List Char}
    (hfirst : c.rest = first :: rest) (halpha : Text.isAlphabetic first = true) {l : Lexeme}
    {c' : Cursor} (h : wordAt c = (.ok l, c')) :
    ∃ spelling, c.Passes spelling c' ∧ Spells l spelling c'.rest.head? := by
  have hword : isWordChar first = true := by simp [isWordChar, halpha]
  have hrun := Cursor.run_of_cons hfirst hword
  have hall : ∀ d ∈ c.run isWordChar, isWordChar d = true := fun d hd => Cursor.mem_run hd
  have hnext : ∀ d ∈ (c.skip isWordChar).rest.head?, isWordChar d = false :=
    fun d hd => Cursor.not_of_mem_head?_skip hd
  unfold wordAt Symbol.ofWord? at h
  dsimp only at h
  injection h with hl hc
  subst hc
  refine ⟨_, c.passes_skip isWordChar, ?_⟩
  split at hl
  · rename_i s hs
    cases hl
    obtain ⟨before, after, htable, -⟩ := List.lookup_eq_some_iff.mp hs
    have hmem : (c.run isWordChar, s) ∈ Symbol.words := by simp [htable]
    exact .keyword ((mem_ofSymbol_iff s _).mpr (.inr hmem)) hall hnext
  · rename_i hnone
    cases hl
    have hnew : ∀ s, c.run isWordChar ∉ ofSymbol s := by
      intro s hs
      rcases (mem_ofSymbol_iff s _).mp hs with hmark | hword'
      · -- A mark has no character of a word.
        have := not_isWordChar_of_mem_marks hmark first (by simp [hrun])
        rw [hword] at this
        cases this
      · have := List.lookup_eq_none_iff.mp hnone _ hword'
        simp at this
    rw [hrun] at hall hnew ⊢
    exact .identifier halpha (fun d hd => hall d (by simp [hd])) hnew hnext

/-- A mark that stands in the table before another does not begin it. -/
theorem marks_pairwise : Symbol.marks.Pairwise fun m m' => m.1.isPrefixOf m'.1 = false := by
  decide

/-- A mark that is found is spelled by what was passed, and no longer mark
is. -/
theorem markAt?_spells {c : Cursor} {spelling : List Char} {s : Symbol}
    (h : Symbol.markAt? c.rest = some (spelling, s)) :
    c.Passes spelling (c.drop spelling.length) ∧
      Spells (.symbol s) spelling (c.drop spelling.length).rest.head? := by
  obtain ⟨hbegins, earlier, later, htable, hearlier⟩ := List.find?_eq_some_iff_append.mp h
  have hmem : (spelling, s) ∈ Symbol.marks := by simp [htable]
  have hnonword := not_isWordChar_of_mem_marks hmem
  obtain ⟨rest, hrest⟩ := List.isPrefixOf_iff_prefix.mp hbegins
  have hpasses := Cursor.passes_drop hrest.symm
  refine ⟨hpasses, .mark ((mem_ofSymbol_iff s _).mpr (.inl hmem)) hnonword ?_⟩
  intro d hd s' hs'
  obtain ⟨tail, htail⟩ := List.head?_eq_some_iff.mp hd
  have hlonger : (spelling ++ [d]).isPrefixOf c.rest = true := by
    rw [ List.isPrefixOf_iff_prefix]
    exact ⟨tail, by rw [hpasses.rest_eq, htail]; simp⟩
  rcases (mem_ofSymbol_iff s' _).mp hs' with hmark | hword
  · -- The longer mark begins the text too, so it does not stand before the one found. But it
    -- does not stand behind it either, since the one found begins it.
    rw [htable] at hmark
    have hpairwise := marks_pairwise
    rw [htable] at hpairwise
    have hlater := (List.pairwise_cons.mp (List.pairwise_append.mp hpairwise).2.1).1
    rcases List.mem_append.mp hmark with hmark | hmark
    · have := hearlier _ hmark
      simp [hlonger] at this
    · rcases List.mem_cons.mp hmark with heq | hmark
      · simpa using congrArg (fun m : List Char × Symbol => m.1.length) heq
      · have := hlater _ hmark
        rw [ List.isPrefixOf_iff_prefix.mpr ⟨[d], rfl⟩] at this
        cases this
  · -- A word has characters of words only, a mark has none.
    obtain ⟨first, hfirst⟩ := List.exists_mem_of_length_pos (length_spelling_pos h)
    have := isWordChar_of_mem_words hword first (by simp [hfirst])
    rw [hnonword first hfirst] at this
    cases this

/-- Where no mark begins, none has the first character, since each first
character of a mark is a mark. -/
theorem head?_ne_of_markAt?_eq_none {first : Char} {rest : List Char}
    (hnone : Symbol.markAt? (first :: rest) = none)
    (halpha : Text.isAlphabetic first = false) (s : Symbol) :
    ∀ spelling ∈ ofSymbol s, spelling.head? ≠ some first := by
  have hwords : Symbol.words.all (fun m => m.1.head?.all Text.isAlphabetic) = true := by decide
  have hmarks : Symbol.marks.all (fun m => m.1.head?.all
      (fun c => Symbol.marks.any (fun m' => m'.1 == [c]))) = true := by decide
  intro spelling hs hhead
  rcases (mem_ofSymbol_iff s spelling).mp hs with hmark | hword
  · have hbegins := List.all_eq_true.mp hmarks _ hmark
    simp only [hhead, Option.all_some, List.any_eq_true] at hbegins
    obtain ⟨m, hm, hfirst⟩ := hbegins
    have := List.find?_eq_none.mp hnone m hm
    simp [eq_of_beq hfirst] at this
  · have hbegins := List.all_eq_true.mp hwords _ hword
    simp [hhead, halpha] at hbegins

/-! ### Tokens -/

/-- What the scanner reads at a character that is not blank is a spelling
that cannot go on. -/
theorem lexemeAt_spells {limit : Nat} {c c' : Cursor} {l : Lexeme} {first : Char}
    {rest : List Char} (hfirst : c.rest = first :: rest) (hblank : Text.isBlank first = false)
    (h : lexemeAt limit c = (.ok l, c')) :
    ∃ spelling, c.Passes spelling c' ∧ Spells l spelling c'.rest.head? := by
  unfold lexemeAt at h
  split at h
  · rename_i hnil
    rw [hfirst] at hnil
    cases hnil
  · rename_i first' rest' hcons
    obtain ⟨rfl, rfl⟩ := List.cons.inj (hfirst.symm.trans hcons)
    split at h
    · rename_i spelling s hmark
      cases h
      exact ⟨spelling, markAt?_spells hmark⟩
    · rename_i hnone
      split at h
      · exact stringAt_spells ‹_› hfirst h
      · split at h
        · exact numberAt_spells hfirst ‹_› h
        · split at h
          · exact wordAt_spells hfirst ‹_› h
          · rename_i hquote hdigit halpha
            cases h
            rw [hfirst] at hnone
            simp only [isQuote, Bool.or_eq_true, decide_eq_true_eq, not_or] at hquote
            simp only [Bool.not_eq_true] at hdigit halpha
            exact ⟨[first], Cursor.passes_drop_one hfirst,
              .unknown hblank halpha hdigit hquote.1 hquote.2
                (head?_ne_of_markAt?_eq_none hnone halpha)⟩

/-- The next token: at the end of the text, or a spelling behind blanks. -/
theorem next_eq_ok {s s' : Scanner} {t : Token} (h : s.next = (.ok t, s')) :
    let c := s.cursor.skip Text.isBlank
    t.position = c.position ∧
      ((c.rest = [] ∧ t.lexeme = .endOfText) ∨
        ∃ spelling, c.Passes spelling s'.cursor ∧
          Spells t.lexeme spelling s'.cursor.rest.head?) := by
  intro c
  unfold next at h
  dsimp only at h
  generalize hread : lexemeAt s.limit c = read at h
  obtain ⟨_ | l, c'⟩ := read
  · cases h
  · cases h
    refine ⟨rfl, ?_⟩
    cases hrest : c.rest with
    | nil =>
      rw [lexemeAt_of_nil _ hrest] at hread
      cases hread
      exact .inl ⟨rfl, rfl⟩
    | cons first rest =>
      have hhead : first ∈ c.rest.head? := by simp [hrest]
      have hblank : Text.isBlank first = false := Cursor.not_of_mem_head?_skip hhead
      exact .inr (lexemeAt_spells hrest hblank hread)

/-- The tokens of a scanner split what it has yet to read. -/
theorem splits_of_tokens {s : Scanner} {ts : List Token} {before : List Char}
    (hplace : s.cursor.position = .behind before) (h : s.tokens = .ok ts) :
    Splits before s.cursor.rest ts := by
  -- Every token but the last makes the scanner smaller. What was read moves over to `before`.
  induction hn : s.size using Nat.strongRecOn generalizing s ts before with
  | ind n ih =>
    have hgap := s.cursor.passes_skip Text.isBlank
    have hblank : ∀ c ∈ s.cursor.run Text.isBlank, Text.isBlank c = true :=
      fun c hc => Cursor.mem_run hc
    have hbehind := hgap.behind hplace
    rw [tokens] at h
    split at h
    · cases h
    · rename_i t s' hnext
      obtain ⟨hposition, hcases⟩ := next_eq_ok hnext
      have ht : t = ⟨t.lexeme, .behind (before ++ s.cursor.run Text.isBlank)⟩ := by
        rw [← hbehind, ← hposition]
      rcases hcases with ⟨hnil, hend⟩ | ⟨spelling, hpasses, hspells⟩
      · -- The gap is all that was left.
        rw [if_pos (by simp [Token.weight, hend])] at h
        cases h
        rw [ht, hend, hgap.rest_eq, hnil, List.append_nil]
        exact .last hblank
      · have hweight : t.weight = 1 := by
          unfold Token.weight
          split
          · exact absurd ‹_› hspells.lexeme_ne_endOfText
          · rfl
        rw [if_neg (by omega)] at h
        cases hrest : s'.tokens with
        | error e =>
          rw [hrest] at h
          cases h
        | ok us =>
          rw [hrest] at h
          cases h
          have hsize := size_next_add_weight_le hnext
          have hsplits := ih s'.size (by omega) (hpasses.behind hbehind) hrest rfl
          rw [ht, hgap.rest_eq, hpasses.rest_eq, ← List.append_assoc]
          exact .token hblank hspells hsplits

/-- If a text can be split into tokens, it is blanks and the spellings of
these tokens in turn, each as long as it can be and at the place of its
first character, and the offsets of the tokens strictly increase. -/
theorem tokens_splits (text : String) (limit : Nat) (ts : List Token)
    (h : (Scanner.ofString text limit).tokens = .ok ts) :
    Splits [] text.toList ts ∧
      ts.Pairwise fun t u => t.position.offset < u.position.offset := by
  have hsplits : Splits [] text.toList ts := splits_of_tokens rfl h
  exact ⟨hsplits, hsplits.offsets_increase⟩

/-- A word, a mark and a number over two lines. -/
theorem tokens_splits_two_lines :
    let ts : List Token := [⟨.identifier "a1", ⟨1, 1, 1⟩⟩, ⟨.symbol .lessEqual, ⟨1, 4, 4⟩⟩,
      ⟨.int 7, ⟨2, 2, 8⟩⟩, ⟨.endOfText, ⟨2, 3, 9⟩⟩]
    Splits [] "a1 <=\n 7".toList ts ∧
      ts.Pairwise fun t u => t.position.offset < u.position.offset :=
  tokens_splits "a1 <=\n 7" 0 _ (by with_unfolding_all rfl)

end Scanner

end ScalarScript
