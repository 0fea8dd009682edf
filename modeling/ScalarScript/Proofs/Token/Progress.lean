import Mathlib.Data.Nat.Find
import ScalarScript.Proofs.Token.Places

/-!
# `ScalarScript.Proofs.Token.Progress`: a scanner moves on, also after errors

A scanner can be called again and again, whatever it has given before.
A call skips the blanks at its cursor. If nothing is left behind them, it
gives the end; else it reads at least one character more, and this
character is no blank (`next_passes`). What has been read is always a
front part of the text, `consumed`, and grows with the calls.

So there are at most as many calls as characters before the end is given.
A call that has given the end leaves the scanner at the end of the text,
and all the calls behind it give the same token (`call_of_isEnd`). No two
other calls give a token at the same place, because each of them has gone
past its own (`offset_call_lt`). `calls_progress` has all of it.
-/

set_option autoImplicit false

namespace ScalarScript

/-! ### Two cursors within a text -/

namespace Cursor

variable {c c' : Cursor} {text : List Char}

/-- The place of a cursor counts the characters in front of it. -/
theorem Within.offset_add_length (h : c.Within text) :
    c.position.offset + c.rest.length = 1 + text.length := by
  obtain ⟨before, rfl, hposition⟩ := h
  rw [hposition]
  simp only [Position.behind, List.length_append]
  omega

/-- The characters that are passed are no longer left. -/
theorem Passes.length_rest {cs : List Char} (h : c.Passes cs c') :
    c.rest.length = cs.length + c'.rest.length := by
  rw [h.rest_eq, List.length_append]

/-- Of two cursors within a text, one with no more left is behind the
other, or at the same place. -/
theorem Within.exists_passes (h : c.Within text) (h' : c'.Within text)
    (hle : c'.rest.length ≤ c.rest.length) : ∃ cs, c.Passes cs c' := by
  obtain ⟨before, htext, hposition⟩ := h
  obtain ⟨before', htext', hposition'⟩ := h'
  have hlength := congrArg List.length (htext.symm.trans htext')
  simp only [List.length_append] at hlength
  -- Both fronts are of one text, so the shorter of them starts the longer.
  have hfront : before <+: before' :=
    List.prefix_of_prefix_length_le ⟨c.rest, htext.symm⟩ ⟨c'.rest, htext'.symm⟩ (by omega)
  obtain ⟨cs, rfl⟩ := hfront
  rw [htext', List.append_assoc] at htext
  refine ⟨cs, (List.append_cancel_left htext).symm, ?_⟩
  rw [hposition, hposition', ← Position.start_after, ← Position.start_after,
    Position.after_append]

end Cursor

namespace Scanner

variable {text : List Char} {s : Scanner}

/-! ### One call -/

/-- The call gave the end of the text. -/
def IsEnd (result : Except TokenError Token) : Prop :=
  ∃ p, result = .ok ⟨.endOfText, p⟩

/-- A call gives the end just when it finds nothing but blanks. -/
theorem isEnd_next_iff : IsEnd s.next.1 ↔ (s.cursor.skip Text.isBlank).rest = [] := by
  constructor
  · intro h
    obtain ⟨p, hp⟩ := h
    have hnext : s.next = (.ok ⟨.endOfText, p⟩, s.next.2) := by rw [← hp]
    rcases (next_eq_ok hnext).2 with ⟨hnil, -⟩ | ⟨_, -, hspells⟩
    · exact hnil
    · exact absurd rfl hspells.lexeme_ne_endOfText
  · intro hnil
    rw [next_of_nil hnil]
    exact ⟨_, rfl⟩

/-- A call passes characters of the text, and one that is no blank unless
it gives the end. This holds of calls that give an error, too. -/
theorem next_passes (h : s.cursor.Within text) :
    ∃ cs, s.cursor.Passes cs s.next.2.cursor ∧
      (¬ IsEnd s.next.1 → ∃ c ∈ cs, Text.isBlank c = false) := by
  have hskip := s.cursor.passes_skip Text.isBlank
  by_cases hnil : (s.cursor.skip Text.isBlank).rest = []
  · have hend := isEnd_next_iff.mpr hnil
    rw [next_of_nil hnil] at hend ⊢
    exact ⟨_, hskip, fun hnot => absurd hend hnot⟩
  · have hlt : s.next.2.cursor.rest.length < (s.cursor.skip Text.isBlank).rest.length :=
      length_lexemeAt_lt s.limit hnil
    have hwithin : s.next.2.cursor.Within text := (next_staysIn h rfl).1
    obtain ⟨cs, hpasses⟩ := (h.skip Text.isBlank).exists_passes hwithin (Nat.le_of_lt hlt)
    refine ⟨_, hskip.trans hpasses, fun _ => ?_⟩
    -- The first character of the lexeme is where the blanks ended.
    cases cs with
    | nil =>
      rw [hpasses.rest_eq] at hlt
      simp at hlt
    | cons first cs =>
      refine ⟨first, by simp, ?_⟩
      exact Cursor.not_of_mem_head?_skip (by rw [hpasses.rest_eq]; rfl)

/-! ### Call after call -/

/-- What a scanner gives when it has been called `k` times before. -/
def call (s : Scanner) (k : Nat) : Except TokenError Token :=
  (s.afterCalls k).next.1

/-- The characters of the text that the scanner has read. -/
def consumed (text : List Char) (s : Scanner) : List Char :=
  text.take (text.length - s.size)

/-- What was read and what is left are the text. -/
theorem consumed_append_rest (h : s.cursor.Within text) :
    s.consumed text ++ s.cursor.rest = text := by
  obtain ⟨before, rfl, -⟩ := h
  simp [consumed, size]

/-- One call more is a call of the scanner that the others have left. -/
theorem afterCalls_succ (s : Scanner) (k : Nat) :
    s.afterCalls (k + 1) = (s.afterCalls k).next.2 :=
  afterCalls_add s k 1

/-- A scanner that has been called `k` times takes one call more. -/
theorem call_of_next {r rest : Scanner} {result : Except TokenError Token} {k : Nat}
    (hr : r = s.afterCalls k) (hnext : r.next = (result, rest)) :
    s.call k = result ∧ rest = s.afterCalls (k + 1) := by
  subst hr
  rw [afterCalls_succ, call, hnext]
  exact ⟨rfl, rfl⟩

/-- What has been read starts what has been read one call later. -/
theorem consumed_succ (h : s.cursor.Within text) (k : Nat) :
    ∃ cs, (s.afterCalls (k + 1)).consumed text = (s.afterCalls k).consumed text ++ cs ∧
      (¬ IsEnd (s.call k) → ∃ c ∈ cs, Text.isBlank c = false) := by
  have hk := within_afterCalls h k
  obtain ⟨cs, hpasses, hblank⟩ := next_passes hk
  refine ⟨cs, ?_, hblank⟩
  have hnow := consumed_append_rest hk
  have hlater := consumed_append_rest (within_afterCalls h (k + 1))
  rw [hpasses.rest_eq, ← afterCalls_succ, ← List.append_assoc] at hnow
  exact List.append_cancel_right (hlater.trans hnow.symm)

/-- More calls leave no more to read. -/
theorem size_afterCalls_le (h : s.cursor.Within text) {j k : Nat} (hle : j ≤ k) :
    (s.afterCalls k).size ≤ (s.afterCalls j).size := by
  induction k, hle using Nat.le_induction with
  | base => exact Nat.le_refl _
  | succ k _ ih =>
    obtain ⟨cs, hpasses, -⟩ := next_passes (within_afterCalls h k)
    have hlength := hpasses.length_rest
    rw [afterCalls_succ]
    simp only [size] at ih ⊢
    omega

/-- A call that does not give the end leaves less to be read. -/
theorem size_afterCalls_succ_lt (h : s.cursor.Within text) {k : Nat} (hend : ¬ IsEnd (s.call k)) :
    (s.afterCalls (k + 1)).size < (s.afterCalls k).size := by
  obtain ⟨cs, hpasses, hblank⟩ := next_passes (within_afterCalls h k)
  obtain ⟨c, hmem, -⟩ := hblank hend
  have hpos := List.length_pos_of_mem hmem
  have hlength := hpasses.length_rest
  rw [afterCalls_succ]
  simp only [size]
  omega

/-- As long as no call gives the end, they use up the text. -/
theorem size_afterCalls_add_le (h : s.cursor.Within text) {k : Nat}
    (hends : ∀ j < k, ¬ IsEnd (s.call j)) : (s.afterCalls k).size + k ≤ s.size := by
  induction k with
  | zero => exact Nat.le_refl _
  | succ k ih =>
    have hle := ih fun j hj => hends j (by omega)
    have hlt := size_afterCalls_succ_lt h (hends k (by omega))
    omega

/-- The end is given after no more calls than there are characters. -/
theorem exists_isEnd_call (h : s.cursor.Within text) :
    ∃ m ≤ s.size, (∀ k < m, ¬ IsEnd (s.call k)) ∧ IsEnd (s.call m) := by
  classical
  have hsome : ∃ k, IsEnd (s.call k) := by
    by_contra hnone
    have hle := size_afterCalls_add_le h fun j (_ : j < s.size + 1) hj => hnone ⟨j, hj⟩
    omega
  refine ⟨Nat.find hsome, ?_, fun k hk => Nat.find_min hsome hk, Nat.find_spec hsome⟩
  have hle := size_afterCalls_add_le h fun j hj => Nat.find_min hsome hj
  omega

/-- From the first end on, every call gives it, at the end of the text. -/
theorem call_of_isEnd (h : s.cursor.Within text) {m k : Nat} (hend : IsEnd (s.call m))
    (hle : m ≤ k) : s.call k = .ok ⟨.endOfText, .behind text⟩ := by
  have hnil := isEnd_next_iff.mp hend
  -- The text is used up, so the cursor stands behind all of it.
  have hposition : ((s.afterCalls m).cursor.skip Text.isBlank).position = .behind text := by
    obtain ⟨before, htext, hbehind⟩ := (within_afterCalls h m).skip Text.isBlank
    rw [hnil, List.append_nil] at htext
    rw [hbehind, htext]
  have hnext := next_of_nil hnil
  rw [hposition] at hnext
  induction k, hle using Nat.le_induction with
  | base =>
    show (s.afterCalls m).next.1 = _
    rw [hnext]
  | succ k hk ih =>
    have hagain : (s.afterCalls k).next =
        (.ok ⟨.endOfText, .behind text⟩, (s.afterCalls k).next.2) := by
      rw [← ih]
      rfl
    show (s.afterCalls (k + 1)).next.1 = _
    rw [afterCalls_succ, next_of_end hagain rfl]

/-- The tokens of later calls stand further on. -/
theorem offset_call_lt (h : s.cursor.Within text) {j k : Nat} {t u : Token} (hjk : j < k)
    (ht : s.call j = .ok t) (hu : s.call k = .ok u) (hend : t.lexeme ≠ .endOfText) :
    t.position.offset < u.position.offset := by
  have hnext : (s.afterCalls j).next = (.ok t, s.afterCalls (j + 1)) := by
    rw [afterCalls_succ, ← ht]
    rfl
  have hnext' : (s.afterCalls k).next = (.ok u, s.afterCalls (k + 1)) := by
    rw [afterCalls_succ, ← hu]
    rfl
  have hpast := (offset_of_next hnext).2 (Token.weight_eq_one_of_ne hend)
  have hfrom := (offset_of_next hnext').1
  -- Between the two calls the cursor does not go back.
  have hsize : (s.afterCalls k).cursor.rest.length ≤ (s.afterCalls (j + 1)).cursor.rest.length :=
    size_afterCalls_le h hjk
  have hplace := (within_afterCalls h (j + 1)).offset_add_length
  have hplace' := (within_afterCalls h k).offset_add_length
  omega

/-- A scanner makes progress, whatever its calls give. What it has read is
a growing front part of the text, and a call that does not give the end
reads a character that is no blank. The end comes after at most as many
such calls as the text has characters; from then on every call gives it, at
the place behind the text. The tokens that come before it, with or without
errors between them, are at growing places. -/
theorem calls_progress (text : String) (limit : Nat) :
    let s := Scanner.ofString text limit
    (∀ k, (s.afterCalls k).consumed text.toList ++ (s.afterCalls k).cursor.rest = text.toList ∧
      ∃ cs, (s.afterCalls (k + 1)).consumed text.toList
          = (s.afterCalls k).consumed text.toList ++ cs ∧
        (¬ IsEnd (s.call k) → ∃ c ∈ cs, Text.isBlank c = false)) ∧
    (∃ m ≤ text.length, (∀ k < m, ¬ IsEnd (s.call k)) ∧
      ∀ k, m ≤ k → s.call k = .ok ⟨.endOfText, .behind text.toList⟩) ∧
    ∀ j k t u, j < k → s.call j = .ok t → s.call k = .ok u →
      t.lexeme ≠ .endOfText → u.lexeme ≠ .endOfText → t.position.offset < u.position.offset := by
  intro s
  have hwithin : s.cursor.Within text.toList := Cursor.within_ofString text
  refine ⟨?_, ?_, ?_⟩
  · intro k
    exact ⟨consumed_append_rest (within_afterCalls hwithin k), consumed_succ hwithin k⟩
  · obtain ⟨m, hle, hbefore, hend⟩ := exists_isEnd_call hwithin
    exact ⟨m, hle, hbefore, fun k hk => call_of_isEnd hwithin hend hk⟩
  · intro j k t u hjk ht hu hend _
    exact offset_call_lt hwithin hjk ht hu hend

/-- An error stands between two tokens, and the second of them is further
on. -/
theorem calls_progress_past_error :
    let s := Scanner.ofString "x 00 y" 5
    let t : Token := ⟨.identifier "x", ⟨1, 1, 1⟩⟩
    let u : Token := ⟨.identifier "y", ⟨1, 6, 6⟩⟩
    s.call 0 = .ok t ∧
      s.call 1 = .error (.malformedNumber (.leadingZeros "00") ⟨1, 3, 3⟩) ∧
      s.call 2 = .ok u ∧ t.position.offset < u.position.offset := by
  intro s t u
  have hfirst : s.next = (.ok t, ⟨⟨" 00 y".toList, ⟨1, 2, 2⟩⟩, 5⟩) := rfl
  have hsecond : next ⟨⟨" 00 y".toList, ⟨1, 2, 2⟩⟩, 5⟩ =
      (.error (.malformedNumber (.leadingZeros "00") ⟨1, 3, 3⟩),
        ⟨⟨" y".toList, ⟨1, 5, 5⟩⟩, 5⟩) := rfl
  have hthird : next ⟨⟨" y".toList, ⟨1, 5, 5⟩⟩, 5⟩ = (.ok u, ⟨⟨[], ⟨1, 7, 7⟩⟩, 5⟩) := rfl
  have ht : s.call 0 = .ok t := by
    rw [call, afterCalls, hfirst]
  have herror : s.call 1 = .error (.malformedNumber (.leadingZeros "00") ⟨1, 3, 3⟩) := by
    rw [call, afterCalls, afterCalls, hfirst, hsecond]
  have hu : s.call 2 = .ok u := by
    rw [call, afterCalls, afterCalls, afterCalls, hfirst, hsecond, hthird]
  obtain ⟨-, -, hoffset⟩ := calls_progress "x 00 y" 5
  exact ⟨ht, herror, hu, hoffset 0 2 t u (by omega) ht hu (by simp [t]) (by simp [u])⟩

end Scanner

end ScalarScript
