import ScalarScript.Expr

/-!
# `ScalarScript.Stmt`: statements

The statements of function bodies, and the types that declarations
name.
-/

set_option autoImplicit false

namespace ScalarScript

/-- The types that a program text can name. -/
inductive DeclaredType where
  | int
  | float
  | string
  /-- Only the result of a function has this type. -/
  | nothing
  deriving DecidableEq, Repr

/-- How a program text and messages spell a type. -/
def DeclaredType.text : DeclaredType → String
  | int => "int"
  | float => "float"
  | string => "string"
  | nothing => "nothing"

/-- Statements. -/
inductive Stmt where
  | declare (name : String) (type : DeclaredType) (initial : Option Expr) (position : Position)
  | assign (name : String) (value : Expr) (position : Position)
  | ifStmt (condition : Expr) (thenBody : Stmt) (elseBody : Option Stmt) (position : Position)
  | whileStmt (condition : Expr) (body : Stmt) (position : Position)
  | returnStmt (value : Option Expr) (position : Position)
  | breakStmt (position : Position)
  | continueStmt (position : Position)
  | call (function : String) (arguments : List Expr) (position : Position)
  | block (body : List Stmt) (position : Position)
  deriving Repr

end ScalarScript
