import ScalarScript.Expr.Eval

/-!
# `ScalarScript.Stmt.Exec`: the effect of a statement

A statement turns a frame into a frame and a signal that says how the
statement ended: it was run through, or it asks to return, to break off
the loop around it, or to go on with the loop's next round.

Only a loop can go on forever. Every loop is given the same number of
rounds, and a run in which some loop needs more has no outcome.
-/

set_option autoImplicit false

namespace ScalarScript

/-- How a statement ends. -/
inductive Signal where
  | through
  | returning (value : Value)
  | breaking
  | continuing
  deriving BEq, Repr

/-- The value as a declared type holds it, or the error that it does not
fit. -/
def Value.stored (type : DeclaredType) (destination : Destination) (name : String)
    (position : Position) (v : Value) : Except RuntimeError Value :=
  match v.store? type with
  | some w => .ok w
  | none => .error (.typeMismatch destination name type.valueType v.type position)

/-- Runs a body as long as a test holds, for at most so many rounds. -/
def rounds (test : Frame → Run RuntimeError Bool)
    (body : Frame → Run RuntimeError (Frame × Signal)) :
    Nat → Frame → Terminal → Outcome RuntimeError (Frame × Signal)
  | 0, _, _ => .unfinished
  | n + 1, f, t =>
    match test f t with
    | .error e t => .error e t
    | .unfinished => .unfinished
    | .ok false t => .ok (f, .through) t
    | .ok true t =>
      match body f t with
      | .error e t => .error e t
      | .unfinished => .unfinished
      | .ok (f, .through) t => rounds test body n f t
      | .ok (f, .continuing) t => rounds test body n f t
      | .ok (f, .breaking) t => .ok (f, .through) t
      | .ok (f, .returning v) t => .ok (f, .returning v) t

/-- Declares a variable, which must not be bound, with the value that its
type holds. -/
def declareVariable (call : Caller) (name : String) (type : DeclaredType) (initial : Option Expr)
    (position : Position) (f : Frame) : Run RuntimeError Frame :=
  if f.contains name then Run.fail (.alreadyExists .aVariable name position)
  else match initial with
    | none => pure (f.set name (.zero type))
    | some e => do
      let v ← e.eval call f.bindings
      let w ← Run.ofExcept (v.stored type .declaration name position)
      pure (f.set name w)

/-- Assigns to a variable, which must be bound, a value of the same type
as the one it has. -/
def assignVariable (call : Caller) (name : String) (e : Expr) (position : Position) (f : Frame) :
    Run RuntimeError Frame :=
  match f.get? name with
  | none => Run.fail (.undefinedVariable name position)
  | some old => do
    let v ← e.eval call f.bindings
    if old.type = v.type then pure (f.set name v)
    else Run.fail (.typeMismatch .assignment name old.type v.type position)

mutual

/-- Runs a statement in a frame. -/
def Stmt.exec (call : Caller) (fuel : Nat) : Stmt → Frame → Run RuntimeError (Frame × Signal)
  | .declare name type initial p, f => do
    let f ← declareVariable call name type initial p f
    pure (f, .through)
  | .assign name e p, f => do
    let f ← assignVariable call name e p f
    pure (f, .through)
  | .ifStmt c thenBody elseBody _, f => do
    if ← c.test call f.bindings then Stmt.exec call fuel thenBody f
    else execOptional call fuel elseBody f
  | .whileStmt c body _, f =>
    rounds (fun f => c.test call f.bindings) (fun f => Stmt.exec call fuel body f) fuel f
  | .returnStmt none _, f => pure (f, .returning .nothing)
  | .returnStmt (some e) _, f => do
    let v ← e.eval call f.bindings
    pure (f, .returning v)
  | .breakStmt _, f => pure (f, .breaking)
  | .continueStmt _, f => pure (f, .continuing)
  | .call function args p, f => do
    let vs ← evalAll call f.bindings args
    let _ ← call function vs p
    pure (f, .through)
  | .block body _, f => execAll call fuel body f

/-- Runs a statement that may be left out. -/
def execOptional (call : Caller) (fuel : Nat) :
    Option Stmt → Frame → Run RuntimeError (Frame × Signal)
  | none, f => pure (f, .through)
  | some s, f => Stmt.exec call fuel s f

/-- Runs statements in turn, as long as they are run through. -/
def execAll (call : Caller) (fuel : Nat) :
    List Stmt → Frame → Run RuntimeError (Frame × Signal)
  | [], f => pure (f, .through)
  | s :: ss, f => do
    let (f, signal) ← Stmt.exec call fuel s f
    match signal with
    | .through => execAll call fuel ss f
    | signal => pure (f, signal)

end

end ScalarScript
