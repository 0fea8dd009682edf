import Mathlib.Data.List.Forall2
import ScalarScript.Proofs.Declarations
import ScalarScript.Proofs.Tree
import ScalarScript.RuntimeError

/-!
# `ScalarScript.Proofs.Alike`: trees that differ in their places

`Alike R` relates two trees that are the same but for their places, where
each place of the first is in the relation `R` to the place of the second.
With a relation that always holds it is equality up to places. With one
that implies equality the trees are equal (`Program.Alike.eq`), and what
the relation says besides holds of every place in them. The errors of a
run have places too, and `RuntimeError.Alike` is the same for them.
-/

set_option autoImplicit false

namespace ScalarScript

/-- Expressions that are the same but for their places. -/
inductive Expr.Alike (R : Position → Position → Prop) : Expr → Expr → Prop
  | int {n : Int64} {p p' : Position} : R p p' → Alike R (.int n p) (.int n p')
  | float {x : Float} {p p' : Position} : R p p' → Alike R (.float x p) (.float x p')
  | string {s : String} {p p' : Position} : R p p' → Alike R (.string s p) (.string s p')
  | name {s : String} {p p' : Position} : R p p' → Alike R (.name s p) (.name s p')
  | call {f : String} {args args' : List Expr} {p p' : Position} :
      List.Forall₂ (Alike R) args args' → R p p' → Alike R (.call f args p) (.call f args' p')
  | unary {op : UnaryOp} {e e' : Expr} {p p' : Position} :
      Alike R e e' → R p p' → Alike R (.unary op e p) (.unary op e' p')
  | arithmetic {op : ArithmeticOp} {es es' : List Expr} {p p' : Position} :
      List.Forall₂ (Alike R) es es' → R p p' → Alike R (.arithmetic op es p) (.arithmetic op es' p')
  | logical {op : LogicalOp} {es es' : List Expr} {p p' : Position} :
      List.Forall₂ (Alike R) es es' → R p p' → Alike R (.logical op es p) (.logical op es' p')
  | comparison {op : ComparisonOp} {left left' right right' : Expr} {p p' : Position} :
      Alike R left left' → Alike R right right' → R p p' →
      Alike R (.comparison op left right p) (.comparison op left' right' p')

/-- Statements that are the same but for their places. -/
inductive Stmt.Alike (R : Position → Position → Prop) : Stmt → Stmt → Prop
  | declare {name : String} {type : DeclaredType} {initial initial' : Option Expr}
      {p p' : Position} : Option.Rel (Expr.Alike R) initial initial' → R p p' →
      Alike R (.declare name type initial p) (.declare name type initial' p')
  | assign {name : String} {e e' : Expr} {p p' : Position} :
      e.Alike R e' → R p p' → Alike R (.assign name e p) (.assign name e' p')
  | ifStmt {c c' : Expr} {thenBody thenBody' : Stmt} {elseBody elseBody' : Option Stmt}
      {p p' : Position} : c.Alike R c' → Alike R thenBody thenBody' →
      Option.Rel (Alike R) elseBody elseBody' → R p p' →
      Alike R (.ifStmt c thenBody elseBody p) (.ifStmt c' thenBody' elseBody' p')
  | whileStmt {c c' : Expr} {body body' : Stmt} {p p' : Position} :
      c.Alike R c' → Alike R body body' → R p p' →
      Alike R (.whileStmt c body p) (.whileStmt c' body' p')
  | returnStmt {value value' : Option Expr} {p p' : Position} :
      Option.Rel (Expr.Alike R) value value' → R p p' →
      Alike R (.returnStmt value p) (.returnStmt value' p')
  | breakStmt {p p' : Position} : R p p' → Alike R (.breakStmt p) (.breakStmt p')
  | continueStmt {p p' : Position} : R p p' → Alike R (.continueStmt p) (.continueStmt p')
  | call {f : String} {args args' : List Expr} {p p' : Position} :
      List.Forall₂ (Expr.Alike R) args args' → R p p' → Alike R (.call f args p) (.call f args' p')
  | block {ss ss' : List Stmt} {p p' : Position} :
      List.Forall₂ (Alike R) ss ss' → R p p' → Alike R (.block ss p) (.block ss' p')

/-- Parameters that are the same but for their places. -/
structure Parameter.Alike (R : Position → Position → Prop) (x x' : Parameter) : Prop where
  name_eq : x.name = x'.name
  type_eq : x.type = x'.type
  position : R x.position x'.position

/-- Functions that are the same but for their places. -/
structure FunctionDecl.Alike (R : Position → Position → Prop) (f f' : FunctionDecl) : Prop where
  name_eq : f.name = f'.name
  parameters : List.Forall₂ (Parameter.Alike R) f.parameters f'.parameters
  result_eq : f.result = f'.result
  body : List.Forall₂ (Stmt.Alike R) f.body f'.body
  bodyPosition : R f.bodyPosition f'.bodyPosition
  position : R f.position f'.position

/-- Programs that are the same but for the places in them. -/
def Program.Alike (R : Position → Position → Prop) (program program' : Program) : Prop :=
  List.Forall₂ (FunctionDecl.Alike R) program.functions program'.functions

/-- Errors of a run that are the same but for their places. -/
inductive RuntimeError.Alike (R : Position → Position → Prop) : RuntimeError → RuntimeError → Prop
  | noMainFunction : Alike R .noMainFunction .noMainFunction
  | callDepthExceeded {function : String} {limit : Nat} :
      Alike R (.callDepthExceeded function limit) (.callDepthExceeded function limit)
  | alreadyExists {what : Named} {name : String} {p p' : Position} :
      R p p' → Alike R (.alreadyExists what name p) (.alreadyExists what name p')
  | undefinedVariable {name : String} {p p' : Position} :
      R p p' → Alike R (.undefinedVariable name p) (.undefinedVariable name p')
  | undefinedFunction {name : String} {p p' : Position} :
      R p p' → Alike R (.undefinedFunction name p) (.undefinedFunction name p')
  | argumentCountMismatch {function : String} {expected : Arity} {got : Nat} {p p' : Position} :
      R p p' → Alike R (.argumentCountMismatch function expected got p)
        (.argumentCountMismatch function expected got p')
  | badOperandType {operator : String} {operands : OperandTypes} {node : String}
      {p p' : Position} : R p p' →
      Alike R (.badOperandType operator operands node p) (.badOperandType operator operands node p')
  | divisionByZero {p p' : Position} : R p p' → Alike R (.divisionByZero p) (.divisionByZero p')
  | castingError {target : DeclaredType} {value : Value} {p p' : Position} :
      R p p' → Alike R (.castingError target value p) (.castingError target value p')
  | typeMismatch {destination : Destination} {name : String} {expected got : ValueType}
      {p p' : Position} : R p p' → Alike R (.typeMismatch destination name expected got p)
        (.typeMismatch destination name expected got p')
  | conditionNotBoolean {got : ValueType} {p p' : Position} :
      R p p' → Alike R (.conditionNotBoolean got p) (.conditionNotBoolean got p')
  | integerOverflow {operation : Operation} {p p' : Position} :
      R p p' → Alike R (.integerOverflow operation p) (.integerOverflow operation p')
  | terminal {error : TerminalError} {p p' : Position} :
      R p p' → Alike R (.terminal error p) (.terminal error p')

section

variable {R : Position → Position → Prop}

/-- The places of two expressions that are alike are related. -/
theorem Expr.Alike.position {e e' : Expr} (h : e.Alike R e') : R e.position e'.position := by
  cases h <;> assumption

/-- Messages describe expressions that are alike in the same way. -/
theorem Expr.Alike.description_eq {e e' : Expr} (h : e.Alike R e') :
    e'.description = e.description := by
  cases h with
  | int | float | string | name | call | comparison => rfl
  | @unary op => cases op <;> rfl
  | @arithmetic op => cases op <;> rfl
  | @logical op => cases op <;> rfl

/-- Errors that are alike both have a place, or neither has one. -/
theorem RuntimeError.Alike.position? {e e' : RuntimeError} (h : e.Alike R e') :
    Option.Rel R e.position? e'.position? := by
  cases h with
  | noMainFunction | callDepthExceeded => exact .none
  | alreadyExists hp | undefinedVariable hp | undefinedFunction hp | argumentCountMismatch hp
  | badOperandType hp | divisionByZero hp | castingError hp | typeMismatch hp
  | conditionNotBoolean hp | integerOverflow hp | terminal hp => exact .some hp

/-- Lists of parameters that are alike have the same names. -/
theorem Parameter.any_name_eq {xs xs' : List Parameter}
    (h : List.Forall₂ (Parameter.Alike R) xs xs') (name : String) :
    (xs.any fun x => x.name == name) = xs'.any fun x => x.name == name := by
  induction h with
  | nil => rfl
  | cons hx _ ih => rw [List.any_cons, List.any_cons, hx.name_eq, ih]

/-- Lists of functions that are alike have the same names, in the same
order. -/
theorem FunctionDecl.map_name_eq {fs fs' : List FunctionDecl}
    (h : List.Forall₂ (FunctionDecl.Alike R) fs fs') :
    fs.map FunctionDecl.name = fs'.map FunctionDecl.name := by
  induction h with
  | nil => rfl
  | cons hf _ ih => rw [List.map_cons, List.map_cons, hf.name_eq, ih]

/-- A function is refused by both programs or added to both. -/
theorem Program.add_alike {program program' : Program} {f f' : FunctionDecl}
    (h : program.Alike R program') (hf : f.Alike R f') :
    (program.add f = .error (.duplicateFunction f.name f.position) ∧
      program'.add f' = .error (.duplicateFunction f'.name f'.position)) ∨
    ∃ next next', program.add f = .ok next ∧ program'.add f' = .ok next' ∧
      next.Alike R next' := by
  have hdefines : program'.Defines f'.name ↔ program.Defines f.name := by
    rw [Program.Defines, Program.Defines, FunctionDecl.map_name_eq h, hf.name_eq]
  by_cases hname : program.Defines f.name
  · exact .inl ⟨add_of_defines hname, add_of_defines (hdefines.mpr hname)⟩
  · obtain ⟨next, hadd, hnext⟩ := add_of_not_defines hname
    obtain ⟨next', hadd', hnext'⟩ := add_of_not_defines (mt hdefines.mp hname)
    refine .inr ⟨next, next', hadd, hadd', ?_⟩
    rw [Program.Alike, hnext, hnext']
    exact List.rel_append h (.cons hf .nil)

/-! ### Parts that may be left out -/

section

variable {α : Type} {V : α → α → Prop} {o : Option α}

/-- Nothing is related to nothing only. -/
theorem eq_none_of_optionRel (h : Option.Rel V none o) : o = none := by
  cases h
  rfl

/-- Something is related to something only. -/
theorem exists_of_optionRel {a : α} (h : Option.Rel V (some a) o) : ∃ a', o = some a' ∧ V a a' := by
  cases h with
  | some ha => exact ⟨_, rfl, ha⟩

/-- What is left out or related to itself is related to itself. -/
theorem optionRel_self (h : ∀ a ∈ o, V a a) : Option.Rel V o o := by
  cases o with
  | none => exact .none
  | some a => exact .some (h a rfl)

end

/-! ### A tree and itself -/

section

variable (hrefl : ∀ p, R p p)
include hrefl

/-- An expression is alike to itself, if each place is related to itself. -/
theorem Expr.Alike.refl (e : Expr) : e.Alike R e := by
  induction e using Expr.induction with
  | int n p => exact .int (hrefl p)
  | float x p => exact .float (hrefl p)
  | string s p => exact .string (hrefl p)
  | name s p => exact .name (hrefl p)
  | call f args p ih => exact .call (List.forall₂_same.mpr ih) (hrefl p)
  | unary op e p ih => exact .unary ih (hrefl p)
  | arithmetic op es p ih => exact .arithmetic (List.forall₂_same.mpr ih) (hrefl p)
  | logical op es p ih => exact .logical (List.forall₂_same.mpr ih) (hrefl p)
  | comparison op left right p ihleft ihright => exact .comparison ihleft ihright (hrefl p)

/-- A statement is alike to itself. -/
theorem Stmt.Alike.refl (s : Stmt) : s.Alike R s := by
  have hexpr : ∀ e : Expr, e.Alike R e := Expr.Alike.refl hrefl
  induction s using Stmt.induction with
  | declare name type initial p => exact .declare (optionRel_self fun e _ => hexpr e) (hrefl p)
  | assign name e p => exact .assign (hexpr e) (hrefl p)
  | ifStmt c thenBody elseBody p ihthen ihelse =>
    exact .ifStmt (hexpr c) ihthen (optionRel_self ihelse) (hrefl p)
  | whileStmt c body p ih => exact .whileStmt (hexpr c) ih (hrefl p)
  | returnStmt value p => exact .returnStmt (optionRel_self fun e _ => hexpr e) (hrefl p)
  | breakStmt p => exact .breakStmt (hrefl p)
  | continueStmt p => exact .continueStmt (hrefl p)
  | call f args p => exact .call (List.forall₂_same.mpr fun e _ => hexpr e) (hrefl p)
  | block body p ih => exact .block (List.forall₂_same.mpr ih) (hrefl p)

/-- A function is alike to itself. -/
theorem FunctionDecl.Alike.refl (f : FunctionDecl) : f.Alike R f where
  name_eq := rfl
  parameters := List.forall₂_same.mpr fun x _ => ⟨rfl, rfl, hrefl x.position⟩
  result_eq := rfl
  body := List.forall₂_same.mpr fun s _ => Stmt.Alike.refl hrefl s
  bodyPosition := hrefl f.bodyPosition
  position := hrefl f.position

/-- A program is alike to itself. -/
theorem Program.Alike.refl (program : Program) : program.Alike R program :=
  List.forall₂_same.mpr fun f _ => FunctionDecl.Alike.refl hrefl f

end

/-! ### Places that are equal -/

/-- Members that are in a relation are equal, so the lists are. -/
theorem eq_of_forall₂ {α : Type} {V : α → α → Prop} {as as' : List α}
    (h : List.Forall₂ V as as') (hV : ∀ a ∈ as, ∀ a', V a a' → a = a') : as = as' := by
  induction h with
  | nil => rfl
  | cons ha _ ih =>
    rw [hV _ (by simp) _ ha, ih fun a ha' => hV a (by simp [ha'])]

/-- If related values are equal, parts that are related are equal. -/
theorem eq_of_optionRel {α : Type} {V : α → α → Prop} {o o' : Option α}
    (h : Option.Rel V o o') (hV : ∀ a ∈ o, ∀ a', V a a' → a = a') : o = o' := by
  cases h with
  | some ha => rw [hV _ rfl _ ha]
  | none => rfl

variable (hR : ∀ p p', R p p' → p = p')
include hR

/-- Expressions that are alike are equal, if places are related only to
themselves. -/
theorem Expr.Alike.eq {e e' : Expr} (h : e.Alike R e') : e = e' := by
  induction e using Expr.induction generalizing e' with
  | int n p | float x p | string s p | name s p =>
    cases h with
    | _ hp => rw [hR _ _ hp]
  | call f args p ih =>
    cases h with
    | call hargs hp => rw [eq_of_forall₂ hargs fun e he e' => ih e he, hR _ _ hp]
  | unary op e p ih =>
    cases h with
    | unary he hp => rw [ih he, hR _ _ hp]
  | arithmetic op es p ih =>
    cases h with
    | arithmetic hes hp => rw [eq_of_forall₂ hes fun e he e' => ih e he, hR _ _ hp]
  | logical op es p ih =>
    cases h with
    | logical hes hp => rw [eq_of_forall₂ hes fun e he e' => ih e he, hR _ _ hp]
  | comparison op left right p ihleft ihright =>
    cases h with
    | comparison hleft hright hp => rw [ihleft hleft, ihright hright, hR _ _ hp]

/-- Statements that are alike are equal. -/
theorem Stmt.Alike.eq {s s' : Stmt} (h : s.Alike R s') : s = s' := by
  have hexpr : ∀ {e e' : Expr}, e.Alike R e' → e = e' := Expr.Alike.eq hR
  induction s using Stmt.induction generalizing s' with
  | declare name type initial p =>
    cases h with
    | declare hinitial hp => rw [eq_of_optionRel hinitial fun _ _ _ => hexpr, hR _ _ hp]
  | assign name e p =>
    cases h with
    | assign he hp => rw [hexpr he, hR _ _ hp]
  | ifStmt c thenBody elseBody p ihthen ihelse =>
    cases h with
    | ifStmt hc hthen helse hp =>
      rw [hexpr hc, ihthen hthen, eq_of_optionRel helse fun s hs s' => ihelse s hs, hR _ _ hp]
  | whileStmt c body p ih =>
    cases h with
    | whileStmt hc hbody hp => rw [hexpr hc, ih hbody, hR _ _ hp]
  | returnStmt value p =>
    cases h with
    | returnStmt hvalue hp => rw [eq_of_optionRel hvalue fun _ _ _ => hexpr, hR _ _ hp]
  | breakStmt p =>
    cases h with
    | breakStmt hp => rw [hR _ _ hp]
  | continueStmt p =>
    cases h with
    | continueStmt hp => rw [hR _ _ hp]
  | call f args p =>
    cases h with
    | call hargs hp => rw [eq_of_forall₂ hargs fun _ _ _ => hexpr, hR _ _ hp]
  | block body p ih =>
    cases h with
    | block hbody hp => rw [eq_of_forall₂ hbody fun s hs s' => ih s hs, hR _ _ hp]

/-- Errors that are alike are equal. -/
theorem RuntimeError.Alike.eq {e e' : RuntimeError} (h : e.Alike R e') : e = e' := by
  cases h with
  | noMainFunction | callDepthExceeded => rfl
  | alreadyExists hp | undefinedVariable hp | undefinedFunction hp | argumentCountMismatch hp
  | badOperandType hp | divisionByZero hp | castingError hp | typeMismatch hp
  | conditionNotBoolean hp | integerOverflow hp | terminal hp => rw [hR _ _ hp]

/-- Parameters that are alike are equal. -/
theorem Parameter.Alike.eq {x x' : Parameter} (h : x.Alike R x') : x = x' := by
  cases x
  cases x'
  obtain ⟨rfl, rfl, hp⟩ := h
  cases hR _ _ hp
  rfl

/-- Functions that are alike are equal. -/
theorem FunctionDecl.Alike.eq {f f' : FunctionDecl} (h : f.Alike R f') : f = f' := by
  cases f
  cases f'
  obtain ⟨rfl, hparameters, rfl, hbody, hx, hy⟩ := h
  cases eq_of_forall₂ hparameters fun _ _ _ => Parameter.Alike.eq hR
  cases eq_of_forall₂ hbody fun _ _ _ => Stmt.Alike.eq hR
  cases hR _ _ hx
  cases hR _ _ hy
  rfl

/-- Programs that are alike are equal. -/
theorem Program.Alike.eq {program program' : Program} (h : program.Alike R program') :
    program = program' :=
  eq_of_functions_eq (eq_of_forall₂ h fun _ _ _ => FunctionDecl.Alike.eq hR)

end

end ScalarScript
