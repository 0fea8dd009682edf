import Mathlib.Tactic.ByContra
import ScalarScript.Proofs.Token.Segmentation

/-!
# `ScalarScript.Proofs.Token.Recognition`: spellings are read

`lexemeAt_spells` says that what a scanner reads is a spelling. Here is
the converse, `lexemeAt_of_spells`: at a spelling that cannot go on, the
scanner reads its lexeme and stops behind it. The one exception is a
string that is too long for the limit, and whether it is does not depend
on what stands behind it.

A string is read one character or escape at a time (`Stands`), and the
room that is left is looked at before each of them. `stringBody_of_fits`
and `stringBody_too_long` say for which strings it suffices.

The first character of a spelling decides which reader is taken. It does
so since the classes of characters are apart: a digit is no letter, and
neither stands in a mark.
-/

set_option autoImplicit false

namespace ScalarScript

open Spelling

/-! ### Classes of characters -/

namespace Text

/-- A number that the table finds is in one of its ranges. -/
theorem exists_of_inRanges {ranges : List (Nat × Nat)} {n : Nat}
    (h : inRanges ranges n = true) : ∃ r ∈ ranges, r.1 ≤ n ∧ n ≤ r.2 := by
  induction ranges with
  | nil => cases h
  | cons r ranges ih =>
    rw [inRanges] at h
    split at h
    · cases h
    · rename_i hlow
      rw [Bool.or_eq_true, decide_eq_true_eq] at h
      rcases h with hhigh | hrest
      · exact ⟨r, by simp, by omega, hhigh⟩
      · obtain ⟨r', hr', hn⟩ := ih hrest
        exact ⟨r', by simp [hr'], hn⟩

/-- What is checked of every code point of the ranges holds of those in
them. -/
theorem forall_of_inRanges {ranges : List (Nat × Nat)} {P : Nat → Bool}
    (hall : (ranges.all fun r => (List.range' r.1 (r.2 + 1 - r.1)).all P) = true) {n : Nat}
    (h : inRanges ranges n = true) : P n = true := by
  obtain ⟨r, hr, hlow, hhigh⟩ := exists_of_inRanges h
  have hrange := List.all_eq_true.mp hall r hr
  refine List.all_eq_true.mp hrange n ?_
  rw [List.mem_range'_1]
  omega

end Text

/-- A 64-bit integer has a 64-bit form, which is itself. -/
theorem Integer.ofInt?_toInt (n : Int64) : Integer.ofInt? n.toInt = some n := by
  have hlow := n.le_toInt
  have hhigh := n.toInt_lt
  unfold Integer.ofInt? Integer.least Integer.greatest
  rw [if_pos (by omega), Int64.ofInt_toInt]

namespace Scanner

variable {c first : Char} {rest : List Char} {p : Position}

/-- A blank is no character of a word. -/
theorem not_isWordChar_of_isBlank (h : Text.isBlank c = true) : isWordChar c = false := by
  have hall : (Text.blankRanges.all fun r => (List.range' r.1 (r.2 + 1 - r.1)).all fun n =>
      !(Text.inRanges Text.alphabeticRanges n || Text.inRanges Text.numericRanges n ||
        n == '_'.toNat)) = true := by decide +kernel
  have hclass := Text.forall_of_inRanges hall h
  simp only [Bool.not_eq_true', Bool.or_eq_false_iff, beq_eq_false_iff_ne] at hclass
  obtain ⟨⟨halpha, hnumeric⟩, hne⟩ := hclass
  have hunderscore : c ≠ '_' := fun hc => hne (congrArg Char.toNat hc)
  unfold isWordChar Text.isAlphabetic Text.isNumeric
  rw [halpha, hnumeric, decide_eq_false hunderscore]
  rfl

/-- A letter is a character of a word. -/
theorem isWordChar_of_isAlphabetic (h : Text.isAlphabetic c = true) : isWordChar c = true := by
  unfold isWordChar
  rw [h, Bool.true_or, Bool.true_or]

/-- A digit is a character of a word, but not of its beginning. -/
theorem class_of_isDigit (h : c.isDigit = true) :
    isWordChar c = true ∧ Text.isAlphabetic c = false := by
  have hall : ([(48, 57)].all fun r => (List.range' r.1 (r.2 + 1 - r.1)).all fun n =>
      !Text.inRanges Text.alphabeticRanges n && Text.inRanges Text.numericRanges n) = true := by
    decide +kernel
  have hrange : Text.inRanges [(48, 57)] c.toNat = true := by
    simp only [Char.isDigit, Bool.and_eq_true, decide_eq_true_eq, ge_iff_le,
      UInt32.le_iff_toNat_le] at h
    obtain ⟨hlow, hhigh⟩ := h
    have hlow : 48 ≤ c.toNat := hlow
    have hhigh : c.toNat ≤ 57 := hhigh
    simp only [Text.inRanges, Nat.not_lt.mpr hlow, hhigh, if_false, decide_true, Bool.true_or]
  have hclass := Text.forall_of_inRanges hall hrange
  rw [Bool.and_eq_true, Bool.not_eq_true'] at hclass
  refine ⟨?_, hclass.1⟩
  unfold isWordChar Text.isNumeric
  rw [hclass.2, Bool.or_true, Bool.true_or]

/-- A character of a word is not a quote. -/
theorem not_isQuote_of_isWordChar (h : isWordChar c = true) : isQuote c = false := by
  have hsingle : isWordChar '\'' = false := by decide +kernel
  have hdouble : isWordChar '"' = false := by decide +kernel
  unfold isQuote
  rw [Bool.or_eq_false_iff, decide_eq_false_iff_not, decide_eq_false_iff_not]
  constructor
  · rintro rfl
    rw [h] at hsingle
    cases hsingle
  · rintro rfl
    rw [h] at hdouble
    cases hdouble

/-! ### Runs of characters -/

/-- The run of characters with a property ends in front of the first one
without it. -/
theorem run_append {P : Char → Bool} {cs : List Char} (hall : ∀ d ∈ cs, P d = true)
    (hnext : ∀ d ∈ rest.head?, P d = false) :
    (⟨cs ++ rest, p⟩ : Cursor).run P = cs ∧
      (⟨cs ++ rest, p⟩ : Cursor).skip P = ⟨rest, p.after cs⟩ := by
  have hstop : rest.takeWhile P = [] ∧ rest.dropWhile P = rest := by
    cases rest with
    | nil => exact ⟨rfl, rfl⟩
    | cons d rest =>
      have hd : P d = false := hnext d rfl
      simp [hd]
  have hrun : (⟨cs ++ rest, p⟩ : Cursor).run P = cs := by
    unfold Cursor.run
    rw [List.takeWhile_append_of_pos hall, hstop.1, List.append_nil]
  refine ⟨hrun, ?_⟩
  unfold Cursor.skip
  rw [hrun, List.dropWhile_append_of_pos hall, hstop.2]

/-- Dropping as many characters as a list has drops the list. -/
theorem drop_append (cs rest : List Char) (p : Position) :
    (⟨cs ++ rest, p⟩ : Cursor).drop cs.length = ⟨rest, p.after cs⟩ := by
  unfold Cursor.drop
  rw [List.drop_left, List.take_left]

/-! ### Marks -/

/-- No mark is found where none starts with the first character. -/
theorem markAt?_eq_none (h : ∀ m ∈ Symbol.marks, m.1.head? ≠ some first) :
    Symbol.markAt? (first :: rest) = none := by
  unfold Symbol.markAt?
  rw [List.find?_eq_none]
  intro m hm hbegins
  have hne := h m hm
  rw [ List.isPrefixOf_iff_prefix] at hbegins
  cases hspelling : m.1 with
  | nil =>
    have hlengths : ∀ m ∈ Symbol.marks, m.1 ≠ [] := by decide
    exact hlengths m hm hspelling
  | cons d spelling =>
    rw [hspelling] at hbegins hne
    rw [List.cons_prefix_cons] at hbegins
    rw [hbegins.1] at hne
    exact hne rfl

/-- No mark starts with a character of a word. -/
theorem markAt?_of_isWordChar (h : isWordChar first = true) :
    Symbol.markAt? (first :: rest) = none := by
  refine markAt?_eq_none ?_
  intro m hm hhead
  have hnot := not_isWordChar_of_mem_marks hm first (List.mem_of_mem_head? hhead)
  rw [h] at hnot
  cases hnot

/-- No mark starts with a quote. -/
theorem markAt?_of_isQuote (h : isQuote first = true) : Symbol.markAt? (first :: rest) = none := by
  have hall : Symbol.marks.all (fun m => m.1.all (!isQuote ·)) = true := by decide
  refine markAt?_eq_none ?_
  intro m hm hhead
  have hnot := List.all_eq_true.mp (List.all_eq_true.mp hall m hm) first
    (List.mem_of_mem_head? hhead)
  rw [h] at hnot
  cases hnot

/-- The mark that is found is the one that no character carries on. -/
theorem markAt?_of_mem {spelling : List Char} {s : Symbol} (hmem : (spelling, s) ∈ Symbol.marks)
    (hnext : ∀ d ∈ rest.head?, ∀ s', spelling ++ [d] ∉ ofSymbol s') :
    Symbol.markAt? (spelling ++ rest) = some (spelling, s) := by
  have hlengths : ∀ m ∈ Symbol.marks, 0 < m.1.length ∧ m.1.length ≤ 2 := by decide
  obtain ⟨earlier, later, htable⟩ := List.append_of_mem hmem
  unfold Symbol.markAt?
  rw [List.find?_eq_some_iff_append]
  refine ⟨by simp, earlier, later, htable, ?_⟩
  intro m hm
  have hmarks : m ∈ Symbol.marks := by simp [htable, hm]
  -- An earlier mark does not begin this one. If it begins the text it is longer, by one
  -- character, and that is excluded.
  have hpairwise := marks_pairwise
  rw [htable] at hpairwise
  have hnot := (List.pairwise_append.mp hpairwise).2.2 m hm (spelling, s) (by simp)
  rw [Bool.not_eq_true']
  by_contra hbegins
  rw [Bool.not_eq_false, List.isPrefixOf_iff_prefix] at hbegins
  rcases List.prefix_or_prefix_of_prefix hbegins (List.prefix_append spelling rest) with h | h
  · rw [ List.isPrefixOf_iff_prefix.mpr h] at hnot
    cases hnot
  · obtain ⟨tail, htail⟩ := h
    obtain ⟨hpositive, -⟩ := hlengths _ hmem
    obtain ⟨-, hshort⟩ := hlengths m hmarks
    rw [← htail, List.length_append] at hshort
    dsimp only at hpositive
    cases tail with
    | nil =>
      rw [List.append_nil] at htail
      rw [← htail, List.isPrefixOf_iff_prefix.mpr (List.prefix_refl spelling)] at hnot
      cases hnot
    | cons d tail =>
      have htail_nil : tail = [] := by
        rw [List.length_cons] at hshort
        exact List.eq_nil_of_length_eq_zero (by omega)
      rw [htail_nil] at htail
      rw [← htail, List.prefix_append_right_inj] at hbegins
      obtain ⟨rest', hrest⟩ := hbegins
      refine hnext d (by simp [← hrest]) m.2 ?_
      rw [htail]
      exact (mem_ofSymbol_iff m.2 m.1).mpr (.inl hmarks)

/-! ### Numbers -/

/-- A number is closed if neither a digit nor a point follows. -/
theorem closeNumber_of_next {c : Cursor} (start : Position) (value : TokenValue)
    (h : ∀ d ∈ c.rest.head?, d.isDigit = false ∧ d ≠ '.') :
    closeNumber start value c = (Lexeme.ofParts .number (some value) start, c) := by
  unfold closeNumber
  split
  · rfl
  · rename_i d rest hrest
    obtain ⟨hdigit, hpoint⟩ := h d (by simp [hrest])
    simp [hdigit, hpoint]

/-- Digits behind the point are read as a fraction, if neither a digit nor
a point follows. -/
theorem fractionAt_of_digits {fraction : List Char} (start : Position) (n : Int64)
    (hne : fraction ≠ []) (hall : ∀ d ∈ fraction, d.isDigit = true)
    (hnext : ∀ d ∈ rest.head?, d.isDigit = false ∧ d ≠ '.') :
    fractionAt start n ⟨fraction ++ rest, p⟩ =
      (.ok (.float (Decimal.literal n fraction)), ⟨rest, p.after fraction⟩) := by
  obtain ⟨hrun, hskip⟩ := @run_append rest p Char.isDigit fraction hall fun d hd => (hnext d hd).1
  rw [fractionAt_eq]
  dsimp only
  rw [hrun, hskip, if_neg hne]
  exact closeNumber_of_next _ _ hnext

/-- What `numberAt` makes of its digits, before it looks at what stands
behind them. -/
theorem numberAt_of_digits {digits : List Char} {n : Int64} (hdigits : Digits digits)
    (hn : n.toInt = decimal digits) (hnext : ∀ d ∈ rest.head?, d.isDigit = false) :
    numberAt ⟨digits ++ rest, p⟩ =
      if rest.head? = some '.' then fractionAt p n ((⟨rest, p.after digits⟩ : Cursor).drop 1)
      else closeNumber p (.int n) ⟨rest, p.after digits⟩ := by
  obtain ⟨hrun, hskip⟩ := @run_append rest p Char.isDigit digits hdigits.all hnext
  have hzeros : digits.take 2 ≠ ['0', '0'] := by
    intro htake
    exact hdigits.no_zeros (by rw [List.prefix_iff_eq_take]; exact htake.symm)
  have hvalue : Integer.ofInt? (Integer.ofDigits digits) = some n := by
    rw [Integer.ofDigits_eq_decimal, ← hn]
    exact Integer.ofInt?_toInt n
  unfold numberAt
  dsimp only
  rw [hrun, hskip, if_neg hzeros, hvalue]

/-! ### Strings -/

/-- A character of a string or an escape in it, and what it stands for. -/
inductive Stands (quote : Char) : List Char → List Char → Prop
  | plain {c : Char} : c ≠ quote → c ≠ '\\' → Stands quote [c] [c]
  | escape {c : Char} {value : List Char} :
      unescape quote c = value → Stands quote ['\\', c] value

/-- A letter with an escape stands for its character. -/
theorem unescape_of_mem {quote c d : Char} (hc : c ≠ quote) (hd : (c, d) ∈ escapes) :
    unescape quote c = [d] := by
  unfold unescape
  rw [if_neg hc, (escape?_eq_some_iff c d).mpr hd]

/-- A letter without an escape stands for itself, and the backslash before
it too. -/
theorem unescape_of_not_mem {quote c : Char} (hc : c ≠ quote) (hnone : ∀ d, (c, d) ∉ escapes) :
    unescape quote c = ['\\', c] := by
  have hescape : escape? c = none := by
    rw [Option.eq_none_iff_forall_not_mem]
    intro d hd
    exact hnone d ((escape?_eq_some_iff c d).mp hd)
  unfold unescape
  rw [if_neg hc, hescape]

/-- Induction over the inside of a string, one character or escape at a
time. -/
theorem decodes_induction {quote : Char}
    {motive : ∀ body cs : List Char, Decodes quote body cs → Prop} (nil : motive [] [] .nil)
    (unit : ∀ {unit value body cs : List Char} (_ : Stands quote unit value)
      (h : Decodes quote body cs) (h' : Decodes quote (unit ++ body) (value ++ cs)),
      motive body cs h → motive (unit ++ body) (value ++ cs) h')
    {body cs : List Char} (h : Decodes quote body cs) : motive body cs h := by
  induction h with
  | nil => exact nil
  | plain hc hslash h ih => exact unit (.plain hc hslash) h (.plain hc hslash h) ih
  | quote h ih =>
    have hself : unescape quote quote = [quote] := if_pos rfl
    exact unit (.escape hself) h (.quote h) ih
  | control hc hd h ih => exact unit (.escape (unescape_of_mem hc hd)) h (.control hc hd h) ih
  | other hc hnone h ih =>
    exact unit (.escape (unescape_of_not_mem hc hnone)) h (.other hc hnone h) ih

section Units

variable {quote : Char} {unit value body cs : List Char} {opening : Position} {limit room : Nat}

/-- A piece of a string in front of a body is read with it. -/
theorem Stands.decodes_append (hunit : Stands quote unit value) (h : Decodes quote body cs) :
    Decodes quote (unit ++ body) (value ++ cs) := by
  cases hunit with
  | plain hc hslash => exact .plain hc hslash h
  | escape hvalue =>
    subst hvalue
    exact decodes_unescape h

/-- Two bodies of a string in a row are read as one. -/
theorem decodes_append {before taken : List Char} (hbefore : Decodes quote before taken)
    (h : Decodes quote body cs) : Decodes quote (before ++ body) (taken ++ cs) := by
  induction hbefore using decodes_induction with
  | nil => exact h
  | unit hunit _ _ ih =>
    rw [List.append_assoc, List.append_assoc]
    exact hunit.decodes_append ih

/-- Nothing stands for more than one character but a backslash that
escapes nothing, and it stands for itself and the character behind it. -/
theorem Stands.length_value (hunit : Stands quote unit value) :
    value.length = 1 ∨
      ∃ c, unit = ['\\', c] ∧ value = ['\\', c] ∧ c ≠ quote ∧ ∀ d, (c, d) ∉ escapes := by
  cases hunit with
  | plain => exact .inl rfl
  | @escape c _ hvalue =>
    subst hvalue
    by_cases hc : c = quote
    · have hself : unescape quote c = [quote] := if_pos hc
      exact .inl (by rw [hself]; rfl)
    · by_cases hnone : ∀ d, (c, d) ∉ escapes
      · exact .inr ⟨c, rfl, unescape_of_not_mem hc hnone, hc, hnone⟩
      · obtain ⟨d, hd⟩ := not_forall_not.mp hnone
        exact .inl (by rw [unescape_of_mem hc hd]; rfl)

/-- Where there is no room, nothing but the closing quote is read. -/
theorem Stands.stringBody_full (hquote : quote ≠ '\\') (hunit : Stands quote unit value) :
    stringBody opening limit quote 0 (unit ++ rest) p =
      (.error (.stringTooLong limit p), ⟨unit ++ rest, p⟩) := by
  cases hunit with
  | plain hc _ =>
    rw [List.singleton_append, stringBody.eq_def]
    dsimp only
    rw [if_neg hc, if_pos rfl]
  | escape =>
    rw [List.cons_append, stringBody.eq_def]
    dsimp only
    rw [if_neg hquote.symm, if_pos rfl]

/-- One step of `stringBody`, which takes all that the escape stands for
even where there is room for one character only. -/
theorem Stands.stringBody_step (hquote : quote ≠ '\\') (hunit : Stands quote unit value)
    (hroom : room ≠ 0) :
    stringBody opening limit quote room (unit ++ rest) p =
      prepend value (stringBody opening limit quote (room - value.length) rest (p.after unit)) := by
  cases hunit with
  | plain hc hslash =>
    rw [List.singleton_append, stringBody.eq_def]
    dsimp only
    rw [if_neg hc, if_neg hroom, if_neg hslash]
    rfl
  | escape hvalue =>
    subst hvalue
    rw [List.cons_append, stringBody.eq_def]
    dsimp only
    rw [if_neg hquote.symm, if_neg hroom, if_pos rfl]
    rfl

/-- Nothing in front of a string changes nothing. -/
theorem prepend_nil (r : Except TokenError (List Char) × Cursor) : prepend [] r = r := by
  obtain ⟨_ | es, c⟩ := r <;> rfl

/-- Characters in front of a string may be put there one list after the
other. -/
theorem prepend_append (cs ds : List Char) (r : Except TokenError (List Char) × Cursor) :
    prepend (cs ++ ds) r = prepend cs (prepend ds r) := by
  obtain ⟨_ | es, c⟩ := r
  · rfl
  · simp [prepend]

/-- The closing quote ends the body. -/
theorem stringBody_quote :
    stringBody opening limit quote room (quote :: rest) p = (.ok [], ⟨rest, p.next quote⟩) := by
  rw [stringBody.eq_def]
  dsimp only
  rw [if_pos rfl]

/-- What there is room for is read, whatever stands behind it. -/
theorem stringBody_append (hquote : quote ≠ '\\') (h : Decodes quote body cs)
    (hroom : cs.length ≤ room) :
    stringBody opening limit quote room (body ++ rest) p =
      prepend cs (stringBody opening limit quote (room - cs.length) rest (p.after body)) := by
  induction h using decodes_induction generalizing room p with
  | nil => exact (prepend_nil _).symm
  | @unit unit value body cs hunit _ _ ih =>
    rw [List.length_append] at hroom
    have hpositive : 0 < value.length := by
      rcases hunit.length_value with h | ⟨c, -, rfl, -⟩
      · omega
      · exact Nat.zero_lt_two
    rw [List.append_assoc, hunit.stringBody_step hquote (by omega), ih (by omega),
      ← prepend_append, Nat.sub_sub, List.length_append, Position.after_append]

/-- A body is read up to its closing quote, if there is room for it. -/
theorem stringBody_of_length_le (hquote : quote ≠ '\\') (h : Decodes quote body cs)
    (hroom : cs.length ≤ room) :
    stringBody opening limit quote room (body ++ quote :: rest) p =
      (.ok cs, ⟨rest, p.after (body ++ [quote])⟩) := by
  rw [stringBody_append hquote h hroom, stringBody_quote, Position.after_append]
  simp [prepend]

/-- The inside of a string stands for one text only, the one that a
scanner with enough room reads. -/
theorem decodes_unique (hquote : quote ≠ '\\') {ds : List Char} (h : Decodes quote body cs)
    (h' : Decodes quote body ds) : cs = ds := by
  have hcs := @stringBody_of_length_le [] .start quote body cs .start 0 (cs.length + ds.length)
    hquote h (by omega)
  have hds := @stringBody_of_length_le [] .start quote body ds .start 0 (cs.length + ds.length)
    hquote h' (by omega)
  rw [hcs] at hds
  injection hds with hread
  injection hread

/-- Where a string grows longer than `room`. -/
theorem exists_crossing (h : Decodes quote body cs) (hlong : room < cs.length) :
    ∃ before taken unit value behind,
      body = before ++ (unit ++ behind) ∧ Decodes quote before taken ∧
      Stands quote unit value ∧ (∃ ds, Decodes quote behind ds) ∧
      taken.length ≤ room ∧ room < taken.length + value.length := by
  induction h using decodes_induction generalizing room with
  | nil => exact absurd hlong (Nat.not_lt_zero room)
  | @unit unit value body cs hunit h _ ih =>
    by_cases hfirst : room < value.length
    · exact ⟨[], [], unit, value, body, rfl, .nil, hunit, ⟨cs, h⟩, Nat.zero_le room,
        by rw [List.length_nil]; omega⟩
    · rw [List.length_append] at hlong
      obtain ⟨before, taken, unit', value', behind, rfl, hbefore, hunit', hbehind, hle, hlt⟩ :=
        ih (show room - value.length < cs.length by omega)
      refine ⟨unit ++ before, value ++ taken, unit', value', behind, by simp,
        hunit.decodes_append hbefore, hunit', hbehind, ?_, ?_⟩
      all_goals
        rw [List.length_append]
        omega

/-- The inside of a string ends in a backslash that stands for itself, and
this one takes the last place of the limit. -/
def Overhangs (quote : Char) (limit : Nat) (body : List Char) : Prop :=
  ∃ before taken c, body = before ++ ['\\', c] ∧ Decodes quote before taken ∧
    c ≠ quote ∧ (∀ d, (c, d) ∉ escapes) ∧ taken.length + 1 = limit

/-- A string that is not longer than the room is read, and so is one that
overhangs it, since a backslash takes the next character with it. -/
theorem stringBody_of_fits (hquote : quote ≠ '\\') (h : Decodes quote body cs)
    (hfits : cs.length ≤ room ∨ Overhangs quote room body) :
    stringBody opening limit quote room (body ++ quote :: rest) p =
      (.ok cs, ⟨rest, p.after (body ++ [quote])⟩) := by
  rcases hfits with hle | ⟨before, taken, c, rfl, hbefore, hc, hnone, rfl⟩
  · exact stringBody_of_length_le hquote h hle
  · have hunit : Stands quote ['\\', c] ['\\', c] := .escape (unescape_of_not_mem hc hnone)
    obtain rfl := decodes_unique hquote h (decodes_append hbefore (.other hc hnone .nil))
    rw [List.append_assoc, stringBody_append hquote hbefore (by omega),
      hunit.stringBody_step hquote (by omega), stringBody_quote]
    simp [prepend, Position.after_append]

/-- Any other string that is too long fails, at the first place that it
has no room for. -/
theorem stringBody_too_long (hquote : quote ≠ '\\') (h : Decodes quote body cs)
    (hlong : room < cs.length) (hover : ¬ Overhangs quote room body) :
    ∃ before behind taken, body = before ++ behind ∧ Decodes quote before taken ∧
      room ≤ taken.length ∧ ∀ opening limit rest p,
        stringBody opening limit quote room (body ++ rest) p =
          (.error (.stringTooLong limit (p.after before)), ⟨behind ++ rest, p.after before⟩) := by
  obtain ⟨before, taken, unit, value, behind, rfl, hbefore, hunit, ⟨ds, hbehind⟩, hle, hlt⟩ :=
    exists_crossing h hlong
  -- The room runs out in front of a piece of the string, or inside of one.
  by_cases hfull : taken.length = room
  · refine ⟨before, unit ++ behind, taken, rfl, hbefore, by omega, ?_⟩
    intro opening limit rest p
    rw [List.append_assoc, stringBody_append hquote hbefore hle, hfull, Nat.sub_self,
      List.append_assoc, hunit.stringBody_full hquote]
    rfl
  · -- A backslash took the last place, and the character behind it came with it.
    rcases hunit.length_value with hone | ⟨c, rfl, rfl, hc, hnone⟩
    · omega
    have hroom : room = taken.length + 1 := by
      rw [List.length_cons, List.length_singleton] at hlt
      omega
    refine ⟨before ++ ['\\', c], behind, taken ++ ['\\', c], by simp,
      decodes_append hbefore (.other hc hnone .nil), by simp [hroom], ?_⟩
    intro opening limit rest p
    cases hbehind using decodes_induction with
    | nil => exact absurd ⟨before, taken, c, by simp, hbefore, hc, hnone, hroom.symm⟩ hover
    | unit hnext _ _ _ =>
      have hstep : room - taken.length ≠ 0 := by omega
      have hleft : room - taken.length - ['\\', c].length = 0 := by
        rw [hroom, List.length_cons, List.length_singleton]
        omega
      rw [List.append_assoc, stringBody_append hquote hbefore hle, List.append_assoc,
        hunit.stringBody_step hquote hstep, hleft, List.append_assoc,
        hnext.stringBody_full hquote, Position.after_append]
      rfl

end Units

/-! ### Lexemes -/

/-- Where no mark begins, the first character decides. -/
theorem lexemeAt_of_no_mark (limit : Nat) (hmark : Symbol.markAt? (first :: rest) = none) :
    lexemeAt limit ⟨first :: rest, p⟩ =
      if isQuote first then stringAt limit first ⟨first :: rest, p⟩
      else if first.isDigit then numberAt ⟨first :: rest, p⟩
      else if Text.isAlphabetic first then wordAt ⟨first :: rest, p⟩
      else (.ok (.unknown first), (⟨first :: rest, p⟩ : Cursor).drop 1) := by
  unfold lexemeAt
  dsimp only
  rw [hmark]
  rfl

/-- A letter starts a word. -/
theorem lexemeAt_of_isAlphabetic (limit : Nat) (halpha : Text.isAlphabetic first = true) :
    lexemeAt limit ⟨first :: rest, p⟩ = wordAt ⟨first :: rest, p⟩ := by
  have hword := isWordChar_of_isAlphabetic halpha
  have hdigit : ¬ first.isDigit = true := by
    intro h
    rw [(class_of_isDigit h).2] at halpha
    cases halpha
  rw [lexemeAt_of_no_mark limit (markAt?_of_isWordChar hword),
    if_neg (Bool.eq_false_iff.mp (not_isQuote_of_isWordChar hword)), if_neg hdigit, if_pos halpha]

/-- A digit starts a number. -/
theorem lexemeAt_of_digits (limit : Nat) {digits : List Char} (hdigits : Digits digits) :
    lexemeAt limit ⟨digits ++ rest, p⟩ = numberAt ⟨digits ++ rest, p⟩ := by
  obtain ⟨first, others, rfl⟩ := List.exists_cons_of_ne_nil hdigits.nonempty
  have hdigit := hdigits.all first (by simp)
  have hword := (class_of_isDigit hdigit).1
  rw [List.cons_append, lexemeAt_of_no_mark limit (markAt?_of_isWordChar hword),
    if_neg (Bool.eq_false_iff.mp (not_isQuote_of_isWordChar hword)), if_pos hdigit]

/-- A word is read up to the next character that does not belong to it. -/
theorem wordAt_append {word : List Char} (hall : ∀ d ∈ word, isWordChar d = true)
    (hnext : ∀ d ∈ rest.head?, isWordChar d = false) :
    (∀ s, Symbol.ofWord? word = some s →
      wordAt ⟨word ++ rest, p⟩ = (.ok (.symbol s), ⟨rest, p.after word⟩)) ∧
    (Symbol.ofWord? word = none →
      wordAt ⟨word ++ rest, p⟩ = (.ok (.identifier (String.ofList word)), ⟨rest, p.after word⟩)) := by
  obtain ⟨hrun, hskip⟩ := @run_append rest p isWordChar word hall hnext
  unfold wordAt
  dsimp only
  rw [hrun, hskip]
  constructor
  · intro s hs
    rw [hs]
    rfl
  · intro hnone
    rw [hnone]
    rfl

/-- A symbol that is written in characters of words is a reserved word,
which begins with a letter. -/
theorem mem_words_of_isWordChar {s : Symbol} {spelling : List Char} (hs : spelling ∈ ofSymbol s)
    (hall : ∀ c ∈ spelling, isWordChar c = true) :
    Symbol.ofWord? spelling = some s ∧
      ∃ first others, spelling = first :: others ∧ Text.isAlphabetic first = true := by
  have hwords : Symbol.words.all (fun m => Symbol.ofWord? m.1 == some m.2 &&
      m.1.head?.any Text.isAlphabetic) = true := by decide +kernel
  rcases (mem_ofSymbol_iff s spelling).mp hs with hmark | hword
  · have hlengths : ∀ m ∈ Symbol.marks, 0 < m.1.length := by decide
    obtain ⟨first, hfirst⟩ := List.exists_mem_of_length_pos (hlengths _ hmark)
    have hnot := not_isWordChar_of_mem_marks hmark first hfirst
    rw [hall first hfirst] at hnot
    cases hnot
  · have hlisted := List.all_eq_true.mp hwords _ hword
    rw [Bool.and_eq_true, beq_iff_eq, Option.any_eq_true] at hlisted
    obtain ⟨hfound, first, hhead, halpha⟩ := hlisted
    obtain ⟨others, hothers⟩ := List.head?_eq_some_iff.mp hhead
    exact ⟨hfound, first, others, hothers, halpha⟩

/-- At a spelling that cannot go on the scanner reads its lexeme and stops
behind it. -/
theorem lexemeAt_of_spells {l : Lexeme} {spelling : List Char} (limit : Nat)
    (h : Spells l spelling rest.head?) (hstring : ∀ text, l ≠ .string text) :
    lexemeAt limit ⟨spelling ++ rest, p⟩ = (.ok l, ⟨rest, p.after spelling⟩) := by
  have hspelling := h.ne_nil
  cases h with
  | string => exact absurd rfl (hstring _)
  | @mark s _ _ hs hall hnext =>
    have hmark : (spelling, s) ∈ Symbol.marks := by
      rcases (mem_ofSymbol_iff s spelling).mp hs with hmark | hword
      · exact hmark
      · obtain ⟨first, others, rfl⟩ := List.exists_cons_of_ne_nil hspelling
        have hnot := hall first (by simp)
        rw [isWordChar_of_mem_words hword first (by simp)] at hnot
        cases hnot
    -- Marks are tried first, so nothing else can be read here.
    have hfound := markAt?_of_mem hmark hnext
    obtain ⟨first, others, rfl⟩ := List.exists_cons_of_ne_nil hspelling
    rw [← drop_append]
    unfold lexemeAt
    dsimp only [List.cons_append]
    rw [List.cons_append] at hfound
    rw [hfound]
    rfl
  | keyword hs hall hnext =>
    obtain ⟨hfound, first, others, rfl, halpha⟩ := mem_words_of_isWordChar hs hall
    have hword := (@wordAt_append rest p (first :: others) hall hnext).1 _ hfound
    rw [List.cons_append] at hword ⊢
    rw [lexemeAt_of_isAlphabetic limit halpha, hword]
  | @identifier first others _ halpha hall hnew hnext =>
    have hwords : ∀ d ∈ first :: others, isWordChar d = true := by
      intro d hd
      rcases List.mem_cons.mp hd with rfl | hd
      · exact isWordChar_of_isAlphabetic halpha
      · exact hall d hd
    have hnone : Symbol.ofWord? (first :: others) = none := by
      unfold Symbol.ofWord?
      rw [List.lookup_eq_none_iff]
      intro m hm
      rw [bne_iff_ne]
      intro heq
      exact hnew m.2 ((mem_ofSymbol_iff m.2 _).mpr (.inr (heq ▸ hm)))
    have hword := (@wordAt_append rest p (first :: others) hwords hnext).2 hnone
    rw [List.cons_append] at hword ⊢
    rw [lexemeAt_of_isAlphabetic limit halpha, hword]
  | int hdigits hn hnext =>
    have hpoint : ¬ rest.head? = some '.' := fun hpoint => (hnext '.' hpoint).2 rfl
    rw [lexemeAt_of_digits limit hdigits,
      numberAt_of_digits hdigits hn fun d hd => (hnext d hd).1, if_neg hpoint]
    exact closeNumber_of_next _ _ hnext
  | @float n digits fraction _ hdigits hn hne hall hnext =>
    -- The point ends the first run of digits.
    have hpoint : ∀ d ∈ ('.' :: (fraction ++ rest)).head?, d.isDigit = false := by
      intro d hd
      cases hd
      decide
    have hfraction :=
      @fractionAt_of_digits rest ((p.after digits).next '.') fraction p n hne hall hnext
    have hhead : ('.' :: (fraction ++ rest)).head? = some '.' := rfl
    rw [List.append_assoc, List.cons_append, lexemeAt_of_digits limit hdigits,
      numberAt_of_digits hdigits hn hpoint, if_pos hhead, Position.after_append]
    exact hfraction
  | @unknown c _ hblank halpha hdigit hsingle hdouble hnew =>
    have hmark : Symbol.markAt? (c :: rest) = none := by
      refine markAt?_eq_none ?_
      intro m hm
      exact hnew m.2 m.1 ((mem_ofSymbol_iff m.2 m.1).mpr (.inl hm))
    have hquote : ¬ isQuote c = true := by simp [isQuote, hsingle, hdouble]
    rw [List.singleton_append, lexemeAt_of_no_mark limit hmark, if_neg hquote,
      if_neg (Bool.eq_false_iff.mp hdigit), if_neg (Bool.eq_false_iff.mp halpha)]
    rfl

/-- At a quote the scanner reads a string. -/
theorem lexemeAt_of_quote (limit : Nat) {quote : Char} (hquote : quote = '\'' ∨ quote = '"') :
    lexemeAt limit ⟨quote :: rest, p⟩ =
      ((stringBody p limit quote limit rest (p.next quote)).1.map
        fun cs => .string (String.ofList cs),
        (stringBody p limit quote limit rest (p.next quote)).2) := by
  have hisQuote : isQuote quote = true := by rcases hquote with rfl | rfl <;> decide
  rw [lexemeAt_of_no_mark limit (markAt?_of_isQuote hisQuote), if_pos hisQuote]
  rfl

/-- A quote is not a backslash. -/
theorem ne_backslash_of_quote {quote : Char} (hquote : quote = '\'' ∨ quote = '"') :
    quote ≠ '\\' := by
  rcases hquote with rfl | rfl <;> decide

/-- A string is read, or it is too long; which of the two depends neither
on its place nor on what stands behind it. -/
theorem lexemeAt_of_string (limit : Nat) {quote : Char} (hquote : quote = '\'' ∨ quote = '"')
    {body cs : List Char} (h : Decodes quote body cs) :
    (∀ rest p, lexemeAt limit ⟨quote :: (body ++ [quote]) ++ rest, p⟩ =
      (.ok (.string (String.ofList cs)), ⟨rest, p.after (quote :: (body ++ [quote]))⟩)) ∨
    limit < cs.length ∧ ∀ rest p, ∃ p' c,
      lexemeAt limit ⟨quote :: (body ++ [quote]) ++ rest, p⟩ =
        (.error (.stringTooLong limit p'), c) := by
  have hslash := ne_backslash_of_quote hquote
  have htext : ∀ rest, quote :: (body ++ [quote]) ++ rest = quote :: (body ++ quote :: rest) := by
    simp
  by_cases hfits : cs.length ≤ limit ∨ Overhangs quote limit body
  · refine .inl ?_
    intro rest p
    rw [htext, lexemeAt_of_quote limit hquote, stringBody_of_fits hslash h hfits]
    rfl
  · rw [not_or, Nat.not_le] at hfits
    obtain ⟨before, behind, taken, -, -, -, hfails⟩ := stringBody_too_long hslash h hfits.1 hfits.2
    refine .inr ⟨hfits.1, ?_⟩
    intro rest p
    rw [htext, lexemeAt_of_quote limit hquote, hfails]
    exact ⟨_, _, rfl⟩

end Scanner

end ScalarScript
