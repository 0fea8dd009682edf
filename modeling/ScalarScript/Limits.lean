/-!
# `ScalarScript.Limits`: what a run may use

The greatest number of frames at one time and the greatest number of
characters of a string in the program text.

`stackBytes` is for a host that runs programs on a stack of its own. No
run here depends on it.
-/

set_option autoImplicit false

namespace ScalarScript

/-- The limits of a run. -/
structure Limits where
  callDepth : Nat
  stringLength : Nat
  deriving DecidableEq, Repr

namespace Limits

/-- The limits that hold when none are given. -/
def standard : Limits := ⟨1000, 1000⟩

/-- The greatest limit that can be asked for, `2 ^ 64 - 1`. -/
def greatest : Nat := 18446744073709551615

/-- The bytes of stack that a host reserves per frame. -/
def stackPerCall : Nat := 64 * 1024

/-- The least stack that a host reserves. -/
def leastStack : Nat := 16 * 1024 * 1024

/-- The greatest stack that a host reserves. -/
def greatestStack : Nat := 1024 * 1024 * 1024

/-- The bytes of stack that a host reserves for a call budget. -/
def stackBytes (callDepth : Nat) : Nat :=
  min greatestStack (max leastStack (callDepth * stackPerCall))

end Limits

end ScalarScript
