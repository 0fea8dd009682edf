import ScalarScript.Text.Utf8

/-!
# `ScalarScript.Proofs.Text.Utf8`: decoding what was encoded

`encode` writes the characters of a text one after the other, each as core
encodes it. `decode_encode` says that every text is read back from its
bytes. A character takes one to four bytes, and there is one lemma for each
of these lengths that says what `decodeFrom` makes of the bytes;
`decodeFrom_encodeChar` is the step for one character.

A line feed is encoded by its own byte, and no other character has this
byte in its encoding (`lineFeed_mem_encodeChar_iff`). So bytes can be cut
into lines before they are decoded.
-/

set_option autoImplicit false

namespace ScalarScript.Text.Utf8

open String (utf8EncodeChar)

/-- The bytes of some characters. -/
def encode (cs : List Char) : List UInt8 :=
  cs.flatMap utf8EncodeChar

/-- These are the bytes that core gives a text. -/
theorem toUTF8_eq_encode (text : String) : text.toUTF8.data.toList = encode text.toList := by
  have htext : text.toUTF8 = text.toList.utf8Encode := by
    rw [← String.toByteArray_ofList, String.ofList_toList]
    rfl
  rw [htext, List.utf8Encode, List.toList_data_toByteArray]
  rfl

/-! ### The bytes of one character -/

section

variable {a b c d : UInt8} (index : Nat) (rest : List UInt8)

/-- One byte below `0x80` is decoded as a character. -/
theorem decodeFrom_one (ha : a.toNat < 0x80) :
    decodeFrom index (a :: rest) =
      (decodeFrom (index + 1) rest).map (Char.ofNat a.toNat :: ·) := by
  rw [decodeFrom.eq_def]
  simp only [UInt8.lt_iff_toNat_lt, UInt8.reduceToNat]
  rw [if_pos ha]

/-- Two bytes are decoded as a character, if the second is a tail. -/
theorem decodeFrom_two (hlow : 0xC2 ≤ a.toNat) (hhigh : a.toNat < 0xE0) (hb : isTail b = true) :
    decodeFrom index (a :: b :: rest) =
      (decodeFrom (index + 2) rest).map (Char.ofNat (extend (a.toNat - 0xC0) b) :: ·) := by
  rw [decodeFrom.eq_def]
  simp only [UInt8.lt_iff_toNat_lt, UInt8.reduceToNat]
  rw [if_neg (by omega), if_neg (by omega), if_pos hhigh, if_pos hb]

/-- Three bytes are decoded as a character, if they make no surrogate and
no shorter form. -/
theorem decodeFrom_three (hlow : 0xE0 ≤ a.toNat) (hhigh : a.toNat < 0xF0)
    (hb : secondOfThree a b = true) (hc : isTail c = true) :
    decodeFrom index (a :: b :: c :: rest) =
      (decodeFrom (index + 3) rest).map
        (Char.ofNat (extend (extend (a.toNat - 0xE0) b) c) :: ·) := by
  rw [decodeFrom.eq_def]
  simp only [UInt8.lt_iff_toNat_lt, UInt8.reduceToNat]
  rw [if_neg (by omega), if_neg (by omega), if_neg (by omega), if_pos hhigh, if_pos hb, if_pos hc]

/-- Four bytes are decoded as a character, if they make one in range and
no shorter form. -/
theorem decodeFrom_four (hlow : 0xF0 ≤ a.toNat) (hhigh : a.toNat < 0xF5)
    (hb : secondOfFour a b = true) (hc : isTail c = true) (hd : isTail d = true) :
    decodeFrom index (a :: b :: c :: d :: rest) =
      (decodeFrom (index + 4) rest).map
        (Char.ofNat (extend (extend (extend (a.toNat - 0xF0) b) c) d) :: ·) := by
  rw [decodeFrom.eq_def]
  simp only [UInt8.lt_iff_toNat_lt, UInt8.reduceToNat]
  rw [if_neg (by omega), if_neg (by omega), if_neg (by omega), if_neg (by omega), if_pos hhigh,
    if_pos hb, if_pos hc, if_pos hd]

end

/-- A byte of the encoding of a character, as a number. -/
theorem toNat_ofNat {n : Nat} (h : n < 256) : (UInt8.ofNat n).toNat = n := by
  rw [UInt8.toNat_ofNat']
  omega

/-- Six bits in a byte that continues a character. -/
theorem isTail_ofNat (n : Nat) : isTail (UInt8.ofNat (n % 64 + 128)) = true := by
  have hbyte := @toNat_ofNat (n % 64 + 128) (by omega)
  simp only [isTail, Bool.and_eq_true, decide_eq_true_eq, UInt8.le_iff_toNat_le, hbyte,
    UInt8.reduceToNat]
  omega

/-- A tail adds its six bits. -/
theorem extend_ofNat (high n : Nat) :
    extend high (UInt8.ofNat (n % 64 + 128)) = high * 64 + n % 64 := by
  have hbyte := @toNat_ofNat (n % 64 + 128) (by omega)
  unfold extend
  rw [hbyte, Nat.add_sub_cancel]

/-- The second of three bytes is not below the numbers that two bytes
encode, and not among those that are no characters. -/
theorem secondOfThree_ofNat {n : Nat} (hlow : 0x800 ≤ n) (hhigh : n < 0x10000)
    (hchar : n < 0xD800 ∨ 0xDFFF < n) :
    secondOfThree (UInt8.ofNat (n / 4096 % 16 + 224)) (UInt8.ofNat (n / 64 % 64 + 128)) = true := by
  have ha := @toNat_ofNat (n / 4096 % 16 + 224) (by omega)
  have hb := @toNat_ofNat (n / 64 % 64 + 128) (by omega)
  simp only [secondOfThree, isTail_ofNat, ← UInt8.toNat_inj, UInt8.le_iff_toNat_le, ha, hb,
    UInt8.reduceToNat]
  split
  · simp; omega
  · split
    · simp; omega
    · rfl

/-- The second of four bytes is not below the numbers that three bytes
encode, and not above the last character. -/
theorem secondOfFour_ofNat {n : Nat} (hlow : 0x10000 ≤ n) (hhigh : n < 0x110000) :
    secondOfFour (UInt8.ofNat (n / 262144 % 8 + 240)) (UInt8.ofNat (n / 4096 % 64 + 128)) =
      true := by
  have ha := @toNat_ofNat (n / 262144 % 8 + 240) (by omega)
  have hb := @toNat_ofNat (n / 4096 % 64 + 128) (by omega)
  simp only [secondOfFour, isTail_ofNat, ← UInt8.toNat_inj, UInt8.le_iff_toNat_le, ha, hb,
    UInt8.reduceToNat]
  split
  · simp; omega
  · split
    · simp; omega
    · rfl

/-- The encoding of one character is read back. -/
theorem decodeFrom_encodeChar (c : Char) (index : Nat) (rest : List UInt8) :
    ∃ index', decodeFrom index (utf8EncodeChar c ++ rest) =
      (decodeFrom index' rest).map (c :: ·) := by
  have hvalid : c.val.toNat < 55296 ∨ 57343 < c.val.toNat ∧ c.val.toNat < 1114112 := c.valid
  have hchar : Char.ofNat c.val.toNat = c := Char.ofNat_toNat c
  unfold utf8EncodeChar
  generalize c.val.toNat = v at hvalid hchar
  dsimp only
  -- The four lengths of an encoding. In each one the bits are put together again as they were cut.
  split
  · have ha := @toNat_ofNat v (by omega)
    refine ⟨index + 1, ?_⟩
    rw [List.singleton_append, decodeFrom_one _ _ (by omega), ha, hchar]
  · split
    · have ha := @toNat_ofNat (v / 64 % 32 + 192) (by omega)
      refine ⟨index + 2, ?_⟩
      rw [List.cons_append, List.singleton_append,
        decodeFrom_two _ _ (by omega) (by omega) (isTail_ofNat v), extend_ofNat, ha]
      have hv : (v / 64 % 32 + 192 - 192) * 64 + v % 64 = v := by omega
      rw [hv, hchar]
    · split
      · have ha := @toNat_ofNat (v / 4096 % 16 + 224) (by omega)
        have hsecond := @secondOfThree_ofNat v (by omega) (by omega) (by omega)
        refine ⟨index + 3, ?_⟩
        rw [List.cons_append, List.cons_append, List.singleton_append,
          decodeFrom_three _ _ (by omega) (by omega) hsecond (isTail_ofNat v), extend_ofNat,
          extend_ofNat, ha]
        have hv : ((v / 4096 % 16 + 224 - 224) * 64 + v / 64 % 64) * 64 + v % 64 = v := by omega
        rw [hv, hchar]
      · have ha := @toNat_ofNat (v / 262144 % 8 + 240) (by omega)
        have hsecond := @secondOfFour_ofNat v (by omega) (by omega)
        refine ⟨index + 4, ?_⟩
        rw [List.cons_append, List.cons_append, List.cons_append, List.singleton_append,
          decodeFrom_four _ _ (by omega) (by omega) hsecond (isTail_ofNat _) (isTail_ofNat v),
          extend_ofNat, extend_ofNat, extend_ofNat, ha]
        have hv : (((v / 262144 % 8 + 240 - 240) * 64 + v / 4096 % 64) * 64 + v / 64 % 64) * 64 +
            v % 64 = v := by omega
        rw [hv, hchar]

/-- Every text is read back from its bytes. -/
theorem decode_encode (cs : List Char) : decode (encode cs) = .ok (String.ofList cs) := by
  have hfrom : ∀ index, decodeFrom index (encode cs) = .ok cs := by
    induction cs with
    | nil => intro index; rfl
    | cons c cs ih =>
      intro index
      obtain ⟨index', hfirst⟩ := decodeFrom_encodeChar c index (encode cs)
      rw [encode, List.flatMap_cons, ← encode, hfirst, ih]
      rfl
  rw [decode, hfrom]
  rfl

/-! ### Line feeds -/

/-- The bytes of a character that takes more than one are above those
that are characters of their own. -/
theorem le_toNat_of_mem_encodeChar {c : Char} (hc : 0x80 ≤ c.val.toNat) {b : UInt8}
    (hb : b ∈ utf8EncodeChar c) : 0x80 ≤ b.toNat := by
  unfold utf8EncodeChar at hb
  generalize c.val.toNat = v at hc hb
  dsimp only at hb
  rw [if_neg (by omega)] at hb
  split at hb
  · simp only [List.mem_cons, List.not_mem_nil, or_false] at hb
    rcases hb with rfl | rfl <;> rw [toNat_ofNat (by omega)] <;> omega
  · split at hb
    · simp only [List.mem_cons, List.not_mem_nil, or_false] at hb
      rcases hb with rfl | rfl | rfl <;> rw [toNat_ofNat (by omega)] <;> omega
    · simp only [List.mem_cons, List.not_mem_nil, or_false] at hb
      rcases hb with rfl | rfl | rfl | rfl <;> rw [toNat_ofNat (by omega)] <;> omega

/-- The byte of a line feed occurs in no other character. -/
theorem lineFeed_mem_encodeChar_iff (c : Char) : 10 ∈ utf8EncodeChar c ↔ c = '\n' := by
  constructor
  · intro h
    by_cases hc : 0x80 ≤ c.val.toNat
    · have hle : 0x80 ≤ 10 := le_toNat_of_mem_encodeChar hc h
      omega
    · have hchar : Char.ofNat c.val.toNat = c := Char.ofNat_toNat c
      unfold utf8EncodeChar at h
      dsimp only at h
      rw [if_pos (by omega), List.mem_singleton] at h
      have hnumber := congrArg UInt8.toNat h
      rw [toNat_ofNat (by omega)] at hnumber
      rw [← hchar, ← hnumber]
      rfl
  · rintro rfl
    decide

end ScalarScript.Text.Utf8
