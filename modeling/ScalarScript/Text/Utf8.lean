/-!
# `ScalarScript.Text.Utf8`: text from bytes

Program files and standard input are UTF-8. `decode` either gives the
characters of all the bytes or says where the first fault lies: a
sequence of up to three bytes that cannot start or continue a
character, or a character that the end of the bytes cuts off.
-/

set_option autoImplicit false

namespace ScalarScript.Text.Utf8

/-- Why bytes are not UTF-8. The index is that of the first byte of the
character that fails. -/
inductive Fault where
  /-- So many bytes are no part of any character. -/
  | invalid (count index : Nat)
  /-- The bytes end inside a character. -/
  | incomplete (index : Nat)
  deriving DecidableEq, Repr

/-- How messages describe a fault. -/
def Fault.text : Fault → String
  | .invalid count index => s!"invalid utf-8 sequence of {count} bytes from index {index}"
  | .incomplete index => s!"incomplete utf-8 byte sequence from index {index}"

/-- Whether a byte continues a character. -/
def isTail (b : UInt8) : Bool :=
  0x80 ≤ b && b ≤ 0xBF

/-- Whether `b` may follow the first byte `a` of a three-byte character.
Overlong forms and surrogates are excluded. -/
def secondOfThree (a b : UInt8) : Bool :=
  if a = 0xE0 then 0xA0 ≤ b && b ≤ 0xBF
  else if a = 0xED then 0x80 ≤ b && b ≤ 0x9F
  else isTail b

/-- Whether `b` may follow the first byte `a` of a four-byte character.
Overlong forms and values above the last code point are excluded. -/
def secondOfFour (a b : UInt8) : Bool :=
  if a = 0xF0 then 0x90 ≤ b && b ≤ 0xBF
  else if a = 0xF4 then 0x80 ≤ b && b ≤ 0x8F
  else isTail b

/-- The six bits that a continuing byte carries, appended to those before
it. -/
def extend (high : Nat) (b : UInt8) : Nat :=
  high * 64 + (b.toNat - 0x80)

/-- The characters of a run of bytes that starts at `index`. -/
def decodeFrom (index : Nat) : List UInt8 → Except Fault (List Char)
  | [] => .ok []
  | a :: rest =>
    if a < 0x80 then
      (decodeFrom (index + 1) rest).map (Char.ofNat a.toNat :: ·)
    else if a < 0xC2 then .error (.invalid 1 index)
    else if a < 0xE0 then
      match rest with
      | [] => .error (.incomplete index)
      | b :: rest =>
        if isTail b then
          (decodeFrom (index + 2) rest).map (Char.ofNat (extend (a.toNat - 0xC0) b) :: ·)
        else .error (.invalid 1 index)
    else if a < 0xF0 then
      match rest with
      | [] => .error (.incomplete index)
      | b :: rest =>
        if secondOfThree a b then
          match rest with
          | [] => .error (.incomplete index)
          | c :: rest =>
            if isTail c then
              (decodeFrom (index + 3) rest).map
                (Char.ofNat (extend (extend (a.toNat - 0xE0) b) c) :: ·)
            else .error (.invalid 2 index)
        else .error (.invalid 1 index)
    else if a < 0xF5 then
      match rest with
      | [] => .error (.incomplete index)
      | b :: rest =>
        if secondOfFour a b then
          match rest with
          | [] => .error (.incomplete index)
          | c :: rest =>
            if isTail c then
              match rest with
              | [] => .error (.incomplete index)
              | d :: rest =>
                if isTail d then
                  (decodeFrom (index + 4) rest).map
                    (Char.ofNat (extend (extend (extend (a.toNat - 0xF0) b) c) d) :: ·)
                else .error (.invalid 3 index)
            else .error (.invalid 2 index)
        else .error (.invalid 1 index)
    else .error (.invalid 1 index)

/-- The text that bytes encode. -/
def decode (bytes : List UInt8) : Except Fault String :=
  (decodeFrom 0 bytes).map String.ofList

end ScalarScript.Text.Utf8
