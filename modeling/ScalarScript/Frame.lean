import ScalarScript.Value

/-!
# `ScalarScript.Frame`: one call of a function

A frame holds the variables of one call and the call budget: how many
frames deep the calls made from it may go, this frame included.
-/

set_option autoImplicit false

namespace ScalarScript

/-- The variables of a frame. A name is bound at most once. -/
abbrev Bindings := List (String × Value)

namespace Bindings

/-- The value of a variable. -/
def get? (b : Bindings) (name : String) : Option Value :=
  b.lookup name

/-- Whether a variable is bound. -/
def contains (b : Bindings) (name : String) : Bool :=
  (b.get? name).isSome

/-- The bindings with a variable bound to a value, in its old place if it
was bound before. -/
def set : Bindings → String → Value → Bindings
  | [], name, v => [(name, v)]
  | (n, w) :: rest, name, v => if n == name then (n, v) :: rest else (n, w) :: set rest name v

/-- Looking a name up in the bindings, the newest one first. -/
theorem get?_cons (name other : String) (v : Value) (b : Bindings) :
    get? ((name, v) :: b) other = if other = name then some v else b.get? other := by
  simp only [get?, List.lookup_cons]
  by_cases h : other = name
  · simp [h]
  · rw [if_neg h, beq_false_of_ne h]

/-- Setting a variable changes that variable and no other. -/
theorem get?_set (b : Bindings) (name other : String) (v : Value) :
    (b.set name v).get? other = if other = name then some v else b.get? other := by
  induction b with
  | nil => rw [set, get?_cons]
  | cons head rest ih =>
    obtain ⟨n, w⟩ := head
    rw [set, get?_cons]
    by_cases hn : n = name
    · subst hn
      rw [if_pos (beq_self_eq_true n), get?_cons]
      split <;> rfl
    · rw [if_neg (by simpa using hn), get?_cons, ih]
      by_cases h : other = n
      · subst h
        rw [if_pos rfl, if_neg hn]
        simp
      · rw [if_neg h, if_neg h]

end Bindings

/-- The frame of a call. -/
structure Frame where
  function : String
  bindings : Bindings
  remaining : Nat
  deriving Repr

namespace Frame

/-- A frame without variables. -/
def enter (function : String) (remaining : Nat) : Frame :=
  ⟨function, [], remaining⟩

/-- The budget of a frame that is called from here, if there may be one. -/
def childBudget? (f : Frame) : Option Nat :=
  if 1 < f.remaining then some (f.remaining - 1) else none

/-- The value of a variable. -/
def get? (f : Frame) (name : String) : Option Value :=
  f.bindings.get? name

/-- Whether a variable is bound. -/
def contains (f : Frame) (name : String) : Bool :=
  f.bindings.contains name

/-- The frame with a variable bound to a value. -/
def set (f : Frame) (name : String) (v : Value) : Frame :=
  { f with bindings := f.bindings.set name v }

end Frame

end ScalarScript
