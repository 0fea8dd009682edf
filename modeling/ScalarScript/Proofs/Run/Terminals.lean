import Mathlib.Data.List.DropRight
import ScalarScript.Proofs.Run.Reuse
import ScalarScript.Proofs.Text.Utf8

/-!
# `ScalarScript.Proofs.Run.Terminals`: standard input and given lines

A program can be run at a terminal that reads the bytes of standard input
and passes on what is printed, or at one that reads lines given beforehand
and only keeps what is printed. `ends_standard_iff_scripted` says that it
makes no difference: if the lines are those of the text on standard input
(`Terminal.linesOf`), both runs end with the same result and have printed
the same, and what the first one has passed on is the output of the second,
line by line.

The two terminals move together. `Terminal.Mirrors` relates them: they have
printed the same, and the bytes that the first has yet to read encode the
characters whose lines the second has yet to read. Printing keeps the
relation since a text with a line feed behind it is its lines, each with a
line feed behind it (`asText_splitLines`). Reading keeps it since the first
line feed among the bytes is the first one of the text (`cutLine_encode`).
-/

set_option autoImplicit false

namespace ScalarScript

open Text.Utf8 (encode)

namespace Terminal

/-! ### Printing -/

/-- Lines as one text, each with a line feed behind it. -/
def asText (lines : List String) : String :=
  String.join (lines.map (· ++ "\n"))

/-- The text of two outputs in a row is the texts of both in a row. -/
theorem asText_append (lines lines' : List String) :
    asText (lines ++ lines') = asText lines ++ asText lines' := by
  simp [asText]

/-- Cutting at line feeds and putting them back gives the text, with a
line feed at its end. -/
theorem flatMap_splitOnP (cs : List Char) :
    (cs.splitOnP (· = '\n')).flatMap (· ++ ['\n']) = cs ++ ['\n'] := by
  induction cs with
  | nil => simp
  | cons c cs ih =>
    rw [List.splitOnP_cons_eq_if_modifyHead]
    by_cases hc : c = '\n'
    · simp [hc, ih]
    · -- The character goes in front of the first line, and there is one.
      cases hlines : cs.splitOnP (· = '\n') with
      | nil => simp [hlines] at ih
      | cons line lines =>
        rw [hlines] at ih
        simpa [hc] using ih

/-- A printed text is its lines. -/
theorem asText_splitLines (text : String) : asText (splitLines text) = text ++ "\n" := by
  rw [← String.toList_inj]
  simpa [asText, splitLines, String.toList_join, List.flatMap_map] using
    flatMap_splitOnP text.toList

/-- There is no line feed in what is between two of them. -/
theorem not_mem_of_mem_splitOnP (cs : List Char) :
    ∀ line ∈ cs.splitOnP (· = '\n'), '\n' ∉ line := by
  induction cs with
  | nil => simp
  | cons c cs ih =>
    rw [List.splitOnP_cons_eq_if_modifyHead]
    by_cases hc : c = '\n'
    · simpa [hc] using ih
    · cases hlines : cs.splitOnP (· = '\n') with
      | nil => simp [hc]
      | cons line lines =>
        rw [hlines, List.forall_mem_cons] at ih
        simpa [hc, Ne.symm hc] using ih

/-- The output of a terminal has no line feed inside its lines. -/
theorem lineFeed_not_mem_output (t : Terminal) {line : String} (h : line ∈ t.output) :
    '\n' ∉ line.toList := by
  obtain ⟨text, -, hline⟩ := List.mem_flatMap.mp h
  obtain ⟨cs, hcs, rfl⟩ := List.mem_map.mp hline
  rw [String.toList_ofList]
  exact not_mem_of_mem_splitOnP _ cs hcs

/-! ### Reading -/

/-- A text cut behind each of its line feeds. -/
def pieces : List Char → List (List Char)
  | [] => []
  | c :: cs =>
    if c = '\n' then [c] :: pieces cs
    else match pieces cs with
      | [] => [[c]]
      | piece :: others => (c :: piece) :: others

/-- The lines of a text: its pieces, each without the line feeds and
carriage returns at its end. -/
def linesOf (content : List Char) : List String :=
  (pieces content).map fun piece =>
    String.ofList (piece.rdropWhile fun c => c = '\n' || c = '\r')

/-- A line without what ends it, as a list of characters. -/
theorem chomp_ofList (piece : List Char) :
    chomp (String.ofList piece) =
      String.ofList (piece.rdropWhile fun c => c = '\n' || c = '\r') := by
  rw [chomp, String.toList_ofList, List.rdropWhile]

/-- Bytes without a line feed belong to the first line. -/
theorem cutLine_append {bytes : List UInt8} (h : lineFeed ∉ bytes) (rest : List UInt8) :
    cutLine (bytes ++ rest) = (bytes ++ (cutLine rest).1, (cutLine rest).2) := by
  have hall : ∀ b ∈ bytes, decide (b ≠ lineFeed) = true := by
    intro b hb
    rw [decide_eq_true_eq]
    rintro rfl
    exact h hb
  unfold cutLine
  rw [List.takeWhile_append_of_pos hall, List.dropWhile_append_of_pos hall]
  dsimp only
  split <;> simp_all

/-- The bytes of a text start with those of its first character. -/
theorem encode_cons (c : Char) (cs : List Char) :
    encode (c :: cs) = String.utf8EncodeChar c ++ encode cs :=
  List.flatMap_cons

/-- The first line of the bytes of a text encodes the first piece of the
text. -/
theorem cutLine_encode {cs : List Char} (h : cs ≠ []) :
    ∃ piece rest, pieces cs = piece :: pieces rest ∧
      cutLine (encode cs) = (encode piece, encode rest) := by
  induction cs with
  | nil => exact absurd rfl h
  | cons c cs ih =>
    by_cases hc : c = '\n'
    · subst hc
      exact ⟨['\n'], cs, by simp [pieces], rfl⟩
    · have hfeed : lineFeed ∉ String.utf8EncodeChar c := by
        intro hmem
        exact hc ((Text.Utf8.lineFeed_mem_encodeChar_iff c).mp hmem)
      rw [encode_cons, cutLine_append hfeed, pieces, if_neg hc]
      cases cs with
      | nil => exact ⟨[c], [], rfl, by simp [encode, cutLine]⟩
      | cons d cs =>
        obtain ⟨piece, rest, hpieces, hcut⟩ := ih (by simp)
        rw [hpieces, hcut]
        exact ⟨c :: piece, rest, rfl, by rw [encode_cons]⟩

/-! ### Two terminals side by side -/

/-- The first terminal passes on what it prints and reads bytes. The
second one has printed the same, and it reads the lines of the text that
the bytes encode. -/
inductive Mirrors : Terminal → Terminal → Prop
  | mk (printed : Array String) (unread : List Char) :
      Mirrors ⟨printed, .bytes (encode unread), some (asText (printed.toList.flatMap splitLines))⟩
        ⟨printed, .lines (linesOf unread), none⟩

variable {t t' : Terminal}

/-- Terminals that mirror each other have printed the same. -/
theorem Mirrors.printed_eq (h : Mirrors t t') : t'.printed = t.printed := by
  cases h
  rfl

/-- What one terminal has passed on is the output of the other. -/
theorem Mirrors.echo_eq (h : Mirrors t t') : t.echo = some (asText t'.output) := by
  cases h
  rfl

/-- Terminals still mirror each other when both print a text. -/
theorem Mirrors.print (h : Mirrors t t') (text : String) :
    Mirrors (t.print text) (t'.print text) := by
  obtain ⟨printed, unread⟩ := h
  have hsent : asText ((printed.push text).toList.flatMap splitLines) =
      asText (printed.toList.flatMap splitLines) ++ text ++ "\n" := by
    rw [Array.toList_push, List.flatMap_append, asText_append, List.flatMap_singleton,
      asText_splitLines, String.append_assoc]
  have hmirrors := Mirrors.mk (printed.push text) unread
  rw [hsent] at hmirrors
  exact hmirrors

/-- Terminals that mirror each other read the same line, and still mirror
each other then. -/
theorem Mirrors.read (h : Mirrors t t') : t'.read.1 = t.read.1 ∧ Mirrors t.read.2 t'.read.2 := by
  obtain ⟨printed, unread⟩ := h
  by_cases hunread : unread = []
  · -- At the end both give the empty line and stay there.
    subst hunread
    exact ⟨rfl, .mk printed []⟩
  · obtain ⟨piece, rest, hpieces, hcut⟩ := cutLine_encode hunread
    have hlines : linesOf unread = chomp (String.ofList piece) :: linesOf rest := by
      rw [linesOf, hpieces, List.map_cons, ← linesOf, chomp_ofList]
    have hread : ∀ echo, Terminal.read ⟨printed, .bytes (encode unread), echo⟩ =
        (.ok (chomp (String.ofList piece)), ⟨printed, .bytes (encode rest), echo⟩) := by
      intro echo
      simp only [Terminal.read, hcut, Text.Utf8.decode_encode]
    rw [hread, hlines]
    exact ⟨rfl, .mk printed rest⟩

end Terminal

/-- Two runs at terminals that mirror each other. -/
def Run.mirroring : Run.Likeness where
  place := Eq
  terminal := Terminal.Mirrors
  lost := fun _ => False
  print := fun text h => h.print text
  read := fun h => h.read

/-- Reading and running a text ends with the result, once its loops are
given enough rounds, and leaves the terminal. -/
def EndsWith (text : String) (limits : Limits) (start : Terminal) (result : Except Failure Value)
    (t : Terminal) : Prop :=
  ∃ outcome, Ends (executeText text limits) start outcome ∧ outcome.end? = some (result, t)

/-- A text ends with a result if it does so with some number of rounds. -/
theorem EndsWith.of_end? {text : String} {limits : Limits} {fuel : Nat} {start t : Terminal}
    {result : Except Failure Value}
    (h : (executeText text limits fuel start).end? = some (result, t)) :
    EndsWith text limits start result t := by
  refine ⟨_, ⟨?_, fuel, rfl⟩, h⟩
  intro hunfinished
  rw [hunfinished] at h
  cases h

/-- Naming the stage of an error changes nothing else of how a run ends. -/
theorem Run.end?_asFailure {α : Type} (r : Run RuntimeError α) (t : Terminal) :
    (r.asFailure t).end? =
      (r t).end?.map fun ended => (ended.1.mapError Failure.runtime, ended.2) := by
  unfold Run.asFailure
  cases r t <;> rfl

/-- At terminals that are alike a text is run alike. Where it cannot be
read, both terminals stay as they are. -/
theorem executeText_end? {L : Run.Likeness} (hlost : ∀ e, ¬ L.lost e)
    (hplace : ∀ p, L.place p p) (heq : ∀ p p', L.place p p' → p = p') (text : String)
    (limits : Limits) (fuel : Nat) {t t' : Terminal} (ht : L.terminal t t') :
    Option.Rel (fun ended ended' => ended'.1 = ended.1 ∧ L.terminal ended.2 ended'.2)
      (executeText text limits fuel t).end? (executeText text limits fuel t').end? := by
  unfold executeText
  cases Program.ofString text limits.stringLength with
  | error e => exact .some ⟨rfl, ht⟩
  | ok program =>
    have hagrees := (Program.Alike.refl hplace program).run_agrees limits fuel t t' ht
    have hends := hagrees.end? hlost heq
    dsimp only
    rw [Run.end?_asFailure, Run.end?_asFailure]
    generalize (program.run limits fuel t).end? = ended at hends ⊢
    generalize (program.run limits fuel t').end? = ended' at hends ⊢
    cases hends with
    | none => exact .none
    | some h => exact .some ⟨congrArg (Except.mapError Failure.runtime) h.1, h.2⟩

/-- A program runs alike at standard input and at given lines. Let the
bytes on standard input encode a text, and let the lines be those of this
text. Reading and running a program text ends at the one terminal exactly
if it ends at the other, with the same value or failure and the same
printed texts. What was passed on to standard output by then is the output
of the other terminal, each line with a line feed behind it; and no line of
an output has a line feed inside. -/
theorem ends_standard_iff_scripted (text content : String) (limits : Limits)
    (result : Except Failure Value) (printed : Array String) (sent : String) :
    ((∃ t, EndsWith text limits (.standard content.toUTF8.data.toList) result t ∧
        t.printed = printed ∧ t.echo = some sent) ↔
      ∃ t, EndsWith text limits (.scripted (Terminal.linesOf content.toList)) result t ∧
        t.printed = printed ∧ sent = Terminal.asText t.output) ∧
    ∀ t : Terminal, ∀ line ∈ t.output, '\n' ∉ line.toList := by
  refine ⟨?_, fun t line hline => t.lineFeed_not_mem_output hline⟩
  have hstart : Terminal.Mirrors (.standard content.toUTF8.data.toList)
      (.scripted (Terminal.linesOf content.toList)) := by
    rw [Text.Utf8.toUTF8_eq_encode]
    exact .mk #[] content.toList
  have hends := fun fuel => executeText_end? (L := Run.mirroring) (fun _ => id) (fun _ => rfl)
    (fun _ _ => id) text limits fuel hstart
  constructor
  · rintro ⟨t, ⟨_, ⟨_, fuel, rfl⟩, hfuel⟩, rfl, hsent⟩
    obtain ⟨⟨result', t'⟩, hfuel', hresult, hmirrors⟩ := exists_of_optionRel (hfuel ▸ hends fuel)
    obtain rfl : result' = result := hresult
    refine ⟨t', .of_end? hfuel', hmirrors.printed_eq, ?_⟩
    exact Option.some.inj (hsent.symm.trans hmirrors.echo_eq)
  · rintro ⟨t', ⟨_, ⟨_, fuel, rfl⟩, hfuel'⟩, rfl, rfl⟩
    have hboth := hends fuel
    rw [hfuel'] at hboth
    generalize hfuel : (executeText text limits fuel _).end? = ended at hboth
    cases hboth with
    | @some ended _ h =>
      obtain ⟨hresult, hmirrors⟩ := h
      obtain ⟨result', t⟩ := ended
      obtain rfl : result = result' := hresult
      exact ⟨t, .of_end? hfuel, hmirrors.printed_eq.symm, hmirrors.echo_eq⟩

end ScalarScript
