import ScalarScript.Terminal

/-!
# `ScalarScript.Run`: computations at a terminal

A run turns a terminal into an outcome: a value or an error, each with
the terminal it leaves behind, or no outcome within the number of loop
rounds it was given. Being unfinished is not an error of the program,
and no run goes on behind it.
-/

set_option autoImplicit false

namespace ScalarScript

/-- How a run ends. -/
inductive Outcome (ε α : Type) where
  | ok (value : α) (terminal : Terminal)
  | error (error : ε) (terminal : Terminal)
  /-- The rounds of some loop were used up. -/
  | unfinished
  deriving Repr

/-- A computation at a terminal. -/
def Run (ε α : Type) : Type :=
  Terminal → Outcome ε α

namespace Run

variable {ε α β : Type}

/-- The run that gives a value at once. -/
@[inline] def value (a : α) : Run ε α := fun t => .ok a t

/-- The run that fails at once. -/
@[inline] def fail (e : ε) : Run ε α := fun t => .error e t

/-- One run after another. -/
@[inline] def andThen (r : Run ε α) (next : α → Run ε β) : Run ε β := fun t =>
  match r t with
  | .ok a t => next a t
  | .error e t => .error e t
  | .unfinished => .unfinished

instance : Monad (Run ε) where
  pure := value
  bind := andThen

instance : LawfulMonad (Run ε) :=
  LawfulMonad.mk' (Run ε)
    (by
      intro α r
      funext t
      simp only [Functor.map, andThen, Function.comp_apply, id_eq, value]
      cases r t <;> rfl)
    (by intros; rfl)
    (by
      intro α β γ r f g
      funext t
      simp only [bind, andThen]
      cases r t <;> rfl)

/-- The run that a result without effects is. -/
def ofExcept : Except ε α → Run ε α
  | .ok a => value a
  | .error e => fail e

end Run

end ScalarScript
