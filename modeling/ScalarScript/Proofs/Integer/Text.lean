import ScalarScript.Builtin
import ScalarScript.Proofs.Integer
import ScalarScript.Proofs.Layout

/-!
# `ScalarScript.Proofs.Integer.Text`: texts that denote an integer

`Integer.Denotes` says which texts denote an integer, without a reader:
blanks, a sign or none, one or more ASCII digits, and blanks again, with
the value that the digits have in powers of ten. The reader of `to_int`
takes just these, as long as the value is in range
(`Integer.read?_trim_eq_some_iff`), and `to_int` fails on all other texts.

The text that is shown for an integer is its digits without leading zeros,
behind a minus if it is negative (`Integer.exists_digits_text`). So it
denotes that integer.
-/

set_option autoImplicit false

namespace ScalarScript

open Spelling (decimal Digits)

/-! ### The digits of a number -/

namespace Integer

/-- The digits of a number do not start with a zero, except for zero
itself. -/
theorem eq_zero_of_head?_toDigits {n : Nat} (h : (Nat.toDigits 10 n).head? = some '0') :
    n = 0 := by
  induction n using Nat.strongRecOn with
  | ind n ih =>
    by_cases hlt : n < 10
    · rw [Nat.toDigits_of_lt_base hlt] at h
      simpa using h
    · -- The digit at the end is not the first one.
      rw [Nat.toDigits_of_base_le (by omega) (by omega),
        List.head?_append_of_ne_nil _ Nat.toDigits_ne_nil] at h
      have := ih (n / 10) (by omega) h
      omega

/-- The digits of a number are spelled as an integer literal is. -/
theorem digits_toDigits (n : Nat) : Digits (Nat.toDigits 10 n) where
  nonempty := Nat.toDigits_ne_nil
  all := fun d hd => Nat.isDigit_of_mem_toDigits (by omega) (by omega) hd
  no_zeros := by
    intro h
    obtain ⟨rest, hrest⟩ := h
    have hn : n = 0 := eq_zero_of_head?_toDigits (by rw [← hrest]; rfl)
    rw [hn, Nat.toDigits_zero] at hrest
    simp at hrest

/-- The digits of a number denote it. -/
theorem decimal_toDigits (n : Nat) : decimal (Nat.toDigits 10 n) = n := by
  rw [← ofDigits_eq_decimal, ofDigits, ← Nat.ofDigitChars_eq_foldl, Nat.ofDigitChars_ten_toDigits]

/-- The text of an integer is digits, behind a minus if it is negative. -/
theorem exists_digits_text (n : Int64) : ∃ digits, Digits digits ∧
    ((text n).toList = digits ∧ n.toInt = decimal digits ∨
      (text n).toList = '-' :: digits ∧ n.toInt = -decimal digits) := by
  rw [text, Int.toString_eq_repr, Int.repr_eq_if]
  by_cases h : 0 ≤ n.toInt
  · refine ⟨_, digits_toDigits n.toInt.toNat, .inl ⟨?_, ?_⟩⟩
    · rw [if_pos h, Nat.toList_repr]
    · rw [decimal_toDigits, Int.toNat_of_nonneg h]
  · refine ⟨_, digits_toDigits (-n.toInt).toNat, .inr ⟨?_, ?_⟩⟩
    · rw [if_neg h, String.toList_append, Nat.toList_repr]
      rfl
    · rw [decimal_toDigits, Int.toNat_of_nonneg (by omega), neg_neg]

/-! ### Texts that denote an integer -/

/-- `Written cs z`: the characters are one or more ASCII digits, with or
without a sign in front of them, and denote `z`. -/
inductive Written : List Char → Int → Prop
  | plain {digits : List Char} :
      digits ≠ [] → (∀ d ∈ digits, d.isDigit = true) → Written digits (decimal digits)
  | plus {digits : List Char} :
      digits ≠ [] → (∀ d ∈ digits, d.isDigit = true) → Written ('+' :: digits) (decimal digits)
  | minus {digits : List Char} :
      digits ≠ [] → (∀ d ∈ digits, d.isDigit = true) → Written ('-' :: digits) (-decimal digits)

/-- `Denotes cs z`: without the blanks at its two ends the text is digits
with or without a sign, and denotes `z`. -/
def Denotes (cs : List Char) (z : Int) : Prop :=
  ∃ before core behind, cs = before ++ core ++ behind ∧
    (∀ c ∈ before, Text.isBlank c = true) ∧ (∀ c ∈ behind, Text.isBlank c = true) ∧
    Written core z

/-- The text of an integer is a way of writing it. -/
theorem written_text (n : Int64) : Written (text n).toList n.toInt := by
  obtain ⟨digits, hdigits, ⟨htext, hn⟩ | ⟨htext, hn⟩⟩ := exists_digits_text n
  · rw [htext, hn]
    exact .plain hdigits.nonempty hdigits.all
  · rw [htext, hn]
    exact .minus hdigits.nonempty hdigits.all

/-- An integer has a 64-bit form exactly if some 64-bit integer is equal
to it. -/
theorem ofInt?_eq_some_iff (z : Int) (m : Int64) : ofInt? z = some m ↔ m.toInt = z := by
  constructor
  · exact toInt_of_ofInt?
  · intro h
    rw [← h, ofInt?_toInt]

/-- A natural number is read exactly from one or more digits, by their
value. -/
theorem readNat?_eq_some_iff (cs : List Char) (n : Nat) :
    readNat? cs = some n ↔ cs ≠ [] ∧ (∀ d ∈ cs, d.isDigit = true) ∧ decimal cs = n := by
  unfold readNat?
  rw [ofDigits_eq_decimal]
  simp [and_assoc]

/-- Digits are read with the sign that `f` gives them. -/
theorem readNat?_bind_eq_some_iff (f : Nat → Int) (cs : List Char) (m : Int64) :
    ((readNat? cs).bind fun n => ofInt? (f n)) = some m ↔
      cs ≠ [] ∧ (∀ d ∈ cs, d.isDigit = true) ∧ m.toInt = f (decimal cs) := by
  simp only [Option.bind_eq_some_iff, readNat?_eq_some_iff, ofInt?_eq_some_iff]
  constructor
  · rintro ⟨n, ⟨hne, hall, rfl⟩, hm⟩
    exact ⟨hne, hall, hm⟩
  · rintro ⟨hne, hall, hm⟩
    exact ⟨_, ⟨hne, hall, rfl⟩, hm⟩

/-- An integer is read exactly from the texts that write it. -/
theorem read?_eq_some_iff (cs : List Char) (m : Int64) :
    read? cs = some m ↔ Written cs m.toInt := by
  constructor
  · intro h
    unfold read? at h
    split at h
    · obtain ⟨hne, hall, hm⟩ := (readNat?_bind_eq_some_iff (fun n => -n) _ m).mp h
      rw [hm]
      exact .minus hne hall
    · obtain ⟨hne, hall, hm⟩ := (readNat?_bind_eq_some_iff (fun n => n) _ m).mp h
      rw [hm]
      exact .plus hne hall
    · obtain ⟨hne, hall, hm⟩ := (readNat?_bind_eq_some_iff (fun n => n) _ m).mp h
      rw [hm]
      exact .plain hne hall
  · intro h
    generalize hz : m.toInt = z at h
    cases h with
    | minus hne hall => exact (readNat?_bind_eq_some_iff (fun n => -n) _ m).mpr ⟨hne, hall, hz⟩
    | plus hne hall => exact (readNat?_bind_eq_some_iff (fun n => n) _ m).mpr ⟨hne, hall, hz⟩
    | plain hne hall =>
      -- A digit is no sign.
      unfold read?
      split
      · exact absurd (hall '-' (by simp)) (by decide)
      · exact absurd (hall '+' (by simp)) (by decide)
      · exact (readNat?_bind_eq_some_iff (fun n => n) _ m).mpr ⟨hne, hall, hz⟩

/-- An integer is not written as an empty text. -/
theorem Written.ne_nil {cs : List Char} {z : Int} (h : Written cs z) : cs ≠ [] := by
  cases h with
  | plain hne _ => exact hne
  | plus _ _ | minus _ _ => simp

/-- No blank stands at either end of digits, nor in front of a sign. -/
theorem Written.ends {cs : List Char} {z : Int} (h : Written cs z) :
    (∀ c ∈ cs.head?, Text.isBlank c = false) ∧ ∀ c ∈ cs.getLast?, Text.isBlank c = false := by
  have hdigit : ∀ c : Char, c.isDigit = true → Text.isBlank c = false := fun c hc =>
    Spelling.not_isBlank_of_isWordChar (Scanner.class_of_isDigit hc).1
  cases h with
  | plain hne hall =>
    exact ⟨fun c hc => hdigit c (hall c (List.mem_of_mem_head? hc)),
      fun c hc => hdigit c (hall c (List.mem_of_getLast? hc))⟩
  | plus hne hall | minus hne hall =>
    refine ⟨?_, fun c hc => ?_⟩
    · intro c hc
      cases hc
      decide
    · rw [List.getLast?_cons_of_ne_nil hne] at hc
      exact hdigit c (hall c (List.mem_of_getLast? hc))

end Integer

namespace Text

/-- No blank is dropped from a text that does not start with one. -/
theorem dropWhile_isBlank_eq_self {cs : List Char} (h : ∀ c ∈ cs.head?, isBlank c = false) :
    cs.dropWhile isBlank = cs := by
  cases cs with
  | nil => rfl
  | cons c cs => rw [List.dropWhile_cons_of_neg (by simp [h c rfl])]

/-- Trimming takes away the blanks around a text. -/
theorem trim_append {before core behind : List Char} (hbefore : ∀ c ∈ before, isBlank c = true)
    (hbehind : ∀ c ∈ behind, isBlank c = true) (hne : core ≠ [])
    (hfirst : ∀ c ∈ core.head?, isBlank c = false)
    (hlast : ∀ c ∈ core.getLast?, isBlank c = false) : trim (before ++ core ++ behind) = core := by
  have hfront : (before ++ core ++ behind).dropWhile isBlank = core ++ behind := by
    rw [List.append_assoc, List.dropWhile_append_of_pos hbefore, dropWhile_isBlank_eq_self]
    rwa [List.head?_append_of_ne_nil _ hne]
  have hrear : (core ++ behind).reverse.dropWhile isBlank = core.reverse := by
    rw [List.reverse_append, List.dropWhile_append_of_pos (by simpa using hbehind),
      dropWhile_isBlank_eq_self]
    rwa [List.head?_reverse]
  rw [trim, hfront, hrear, List.reverse_reverse]

/-- What trimming takes away are blanks. -/
theorem exists_trim (cs : List Char) : ∃ before behind, cs = before ++ trim cs ++ behind ∧
    (∀ c ∈ before, isBlank c = true) ∧ ∀ c ∈ behind, isBlank c = true := by
  have hall : ∀ ds : List Char, ∀ c ∈ ds.takeWhile isBlank, isBlank c = true :=
    fun ds => List.all_eq_true.mp List.all_takeWhile
  refine ⟨cs.takeWhile isBlank, ((cs.dropWhile isBlank).reverse.takeWhile isBlank).reverse, ?_,
    hall cs, fun c hc => hall _ c (List.mem_reverse.mp hc)⟩
  rw [trim, List.append_assoc, ← List.reverse_append, List.takeWhile_append_dropWhile,
    List.reverse_reverse, List.takeWhile_append_dropWhile]

end Text

namespace Integer

/-- The reader of integers takes the texts that denote one. -/
theorem read?_trim_eq_some_iff (cs : List Char) (m : Int64) :
    read? (Text.trim cs) = some m ↔ Denotes cs m.toInt := by
  constructor
  · intro h
    obtain ⟨before, behind, hcs, hbefore, hbehind⟩ := Text.exists_trim cs
    exact ⟨before, _, behind, hcs, hbefore, hbehind, (read?_eq_some_iff _ m).mp h⟩
  · intro h
    obtain ⟨before, core, behind, rfl, hbefore, hbehind, hwritten⟩ := h
    obtain ⟨hfirst, hlast⟩ := hwritten.ends
    rw [Text.trim_append hbefore hbehind hwritten.ne_nil hfirst hlast]
    exact (read?_eq_some_iff core m).mpr hwritten

end Integer

namespace Builtin

/-- What `to_int` does with a text. -/
theorem toInt_call_string (s : String) (p : Position) :
    toInt.call [.string s] p =
      converted .int (.string s) p ((Integer.read? (Text.trim s.toList)).map .int) := rfl

/-- `to_int` of a text is the integer that it denotes. -/
theorem toInt_call_of_denotes {s : String} {m : Int64} (h : Integer.Denotes s.toList m.toInt)
    (p : Position) : toInt.call [.string s] p = pure (.int m) := by
  rw [toInt_call_string, (Integer.read?_trim_eq_some_iff _ _).mpr h]
  rfl

/-- `to_int` fails on all other texts. -/
theorem toInt_call_of_not_denotes {s : String}
    (h : ∀ m : Int64, ¬ Integer.Denotes s.toList m.toInt) (p : Position) :
    toInt.call [.string s] p = Run.fail (.castingError .int (.string s) p) := by
  have hnone : Integer.read? (Text.trim s.toList) = none := by
    rw [Option.eq_none_iff_forall_ne_some]
    intro m hm
    exact h m ((Integer.read?_trim_eq_some_iff _ _).mp hm)
  rw [toInt_call_string, hnone]
  rfl

/-- `to_int` gives an integer exactly for the texts that denote it, with
blanks around it or not. -/
theorem toInt_call_eq_ok_iff (s : String) (p : Position) (t : Terminal) (m : Int64) :
    toInt.call [.string s] p t = .ok (.int m) t ↔ Integer.Denotes s.toList m.toInt := by
  constructor
  · intro h
    rw [toInt_call_string] at h
    cases hread : Integer.read? (Text.trim s.toList) with
    | none =>
      rw [hread] at h
      cases h
    | some m' =>
      rw [hread] at h
      cases h
      exact (Integer.read?_trim_eq_some_iff _ _).mp hread
  · intro h
    rw [toInt_call_of_denotes h]
    rfl

end Builtin

end ScalarScript
