/-!
# `ScalarScript.Position`: places in a program text

A position names a character of a text by line, column and offset. All
three count from one, in Unicode scalar values. A line feed belongs to
the line that it ends.
-/

set_option autoImplicit false

namespace ScalarScript

/-- A place in a program text. -/
structure Position where
  line : Nat
  column : Nat
  offset : Nat
  deriving DecidableEq, Repr, Inhabited

namespace Position

/-- The place of a text's first character. -/
def start : Position := ⟨1, 1, 1⟩

/-- The place after the character `c`. -/
def next (p : Position) (c : Char) : Position :=
  if c = '\n' then ⟨p.line + 1, 1, p.offset + 1⟩
  else ⟨p.line, p.column + 1, p.offset + 1⟩

/-- The place after a run of characters. -/
def after (p : Position) (cs : List Char) : Position :=
  cs.foldl next p

@[simp] theorem after_nil (p : Position) : p.after [] = p := rfl

@[simp] theorem after_cons (p : Position) (c : Char) (cs : List Char) :
    p.after (c :: cs) = (p.next c).after cs := rfl

/-- The place behind two texts is the place behind the second, counted
from the place behind the first. -/
theorem after_append (p : Position) (cs ds : List Char) :
    p.after (cs ++ ds) = (p.after cs).after ds :=
  List.foldl_append

/-- How messages name a place. -/
def text (p : Position) : String :=
  s!"line {p.line}, column {p.column}"

end Position

end ScalarScript
