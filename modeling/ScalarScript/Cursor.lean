import ScalarScript.Position

/-!
# `ScalarScript.Cursor`: a text that is being read

A cursor holds the characters of a text that are still to be read and
the place of the first of them. Reading only moves forward, and every
step is a function of the cursor, so the characters read before a
cursor and its place always agree.
-/

set_option autoImplicit false

namespace ScalarScript

/-- The unread rest of a text, and where it starts. -/
structure Cursor where
  rest : List Char
  position : Position
  deriving DecidableEq, Repr

namespace Cursor

/-- A cursor before the first character of a text. -/
def ofString (text : String) : Cursor :=
  ⟨text.toList, .start⟩

/-- The next character and the cursor behind it, unless the text ends.
This is for callers that go through a text by themselves; the scanner
takes whole runs of characters. -/
def next? (c : Cursor) : Option (Char × Cursor) :=
  match c.rest with
  | [] => none
  | ch :: rest => some (ch, ⟨rest, c.position.next ch⟩)

/-- The cursor behind the next `n` characters. -/
def drop (c : Cursor) (n : Nat) : Cursor :=
  ⟨c.rest.drop n, c.position.after (c.rest.take n)⟩

/-- The longest run of characters with the property `p`. -/
def run (c : Cursor) (p : Char → Bool) : List Char :=
  c.rest.takeWhile p

/-- The cursor behind the longest run of characters with the property `p`. -/
def skip (c : Cursor) (p : Char → Bool) : Cursor :=
  ⟨c.rest.dropWhile p, c.position.after (c.run p)⟩

/-- The run of characters and what the cursor leaves behind it are all
that was there. -/
theorem run_append_skip (c : Cursor) (p : Char → Bool) :
    c.run p ++ (c.skip p).rest = c.rest :=
  List.takeWhile_append_dropWhile

/-- Skipping makes what is left no longer. -/
theorem length_skip_le (c : Cursor) (p : Char → Bool) :
    (c.skip p).rest.length ≤ c.rest.length :=
  (List.dropWhile_suffix p).length_le

/-- What is left after some characters were dropped. -/
@[simp] theorem length_drop (c : Cursor) (n : Nat) :
    (c.drop n).rest.length = c.rest.length - n :=
  List.length_drop

end Cursor

end ScalarScript
