import ScalarScript.Proofs.Grammar

/-!
# `ScalarScript.Proofs.Tree`: induction over trees

Expressions and statements hold lists of their own kind, so the
induction over them has a hypothesis for every member of a list.
`Expr.induction` and `Stmt.induction` state it in that form.

`Stmt.Within s b` says that `s` is `b` or stands somewhere inside it.
The statements inside a phrase of the grammar are phrases themselves
(`instruction_of_within`), so no declaration inside a derived statement
declares the type `nothing`.
-/

set_option autoImplicit false

namespace ScalarScript

/-- Induction over an expression and the expressions in it. -/
theorem Expr.induction {P : Expr → Prop}
    (int : ∀ n p, P (.int n p)) (float : ∀ x p, P (.float x p))
    (string : ∀ s p, P (.string s p)) (name : ∀ s p, P (.name s p))
    (call : ∀ f args p, (∀ e ∈ args, P e) → P (.call f args p))
    (unary : ∀ op e p, P e → P (.unary op e p))
    (arithmetic : ∀ op es p, (∀ e ∈ es, P e) → P (.arithmetic op es p))
    (logical : ∀ op es p, (∀ e ∈ es, P e) → P (.logical op es p))
    (comparison : ∀ op left right p, P left → P right → P (.comparison op left right p))
    (e : Expr) : P e :=
  @Expr.rec P (fun es => ∀ e ∈ es, P e) int float string name
    (fun f args p h => call f args p h) unary (fun op es p h => arithmetic op es p h)
    (fun op es p h => logical op es p h) comparison (by simp)
    (fun e es he hes => by simpa using ⟨he, hes⟩) e

/-- Induction over a statement and the statements in it. -/
theorem Stmt.induction {P : Stmt → Prop}
    (declare : ∀ name type initial p, P (.declare name type initial p))
    (assign : ∀ name e p, P (.assign name e p))
    (ifStmt : ∀ c thenBody elseBody p, P thenBody → (∀ s ∈ elseBody, P s) →
      P (.ifStmt c thenBody elseBody p))
    (whileStmt : ∀ c body p, P body → P (.whileStmt c body p))
    (returnStmt : ∀ value p, P (.returnStmt value p))
    (breakStmt : ∀ p, P (.breakStmt p)) (continueStmt : ∀ p, P (.continueStmt p))
    (call : ∀ f args p, P (.call f args p))
    (block : ∀ body p, (∀ s ∈ body, P s) → P (.block body p)) (s : Stmt) : P s :=
  @Stmt.rec P (fun o => ∀ s ∈ o, P s) (fun ss => ∀ s ∈ ss, P s) declare assign ifStmt whileStmt
    returnStmt breakStmt continueStmt call block (by simp) (fun s hs => by simpa using hs)
    (by simp) (fun s ss hs hss => by simpa using ⟨hs, hss⟩) s

/-- `Within s b`: the statement `s` is `b` or stands inside it. -/
inductive Stmt.Within (s : Stmt) : Stmt → Prop
  | self : Within s s
  | thenBody {c : Expr} {body : Stmt} {elseBody : Option Stmt} {p : Position} :
      Within s body → Within s (.ifStmt c body elseBody p)
  | elseBody {c : Expr} {thenBody body : Stmt} {p : Position} :
      Within s body → Within s (.ifStmt c thenBody (some body) p)
  | whileBody {c : Expr} {body : Stmt} {p : Position} :
      Within s body → Within s (.whileStmt c body p)
  | block {body : Stmt} {ss : List Stmt} {p : Position} :
      body ∈ ss → Within s body → Within s (.block ss p)

/-- The statement `s` holds the declaration of a variable with a type. -/
def Stmt.Declares (s : Stmt) (name : String) (type : DeclaredType) : Prop :=
  ∃ initial p, Stmt.Within (.declare name type initial p) s

/-- The statement stands in the body of a function of the program. -/
def Program.Contains (program : Program) (s : Stmt) : Prop :=
  ∃ f ∈ program.functions, ∃ b ∈ f.body, s.Within b

/-- What is inside of a statement that is inside of another is inside of
the other. -/
theorem Stmt.Within.trans {s b c : Stmt} (h : s.Within b) (h' : b.Within c) : s.Within c := by
  induction h' with
  | self => exact h
  | thenBody _ ih => exact .thenBody ih
  | elseBody _ ih => exact .elseBody ih
  | whileBody _ ih => exact .whileBody ih
  | block hmem _ ih => exact .block hmem ih

/-- What is declared inside a part is declared inside the whole. -/
theorem Stmt.Declares.of_within {s b : Stmt} {name : String} {type : DeclaredType}
    (h : s.Declares name type) (h' : s.Within b) : b.Declares name type := by
  obtain ⟨initial, p, hwithin⟩ := h
  exact ⟨initial, p, hwithin.trans h'⟩

namespace Grammar

/-- Each statement of a list is spelled by some tokens. -/
theorem statement_of_mem {ss : List Stmt} {s : Stmt} {ts : List Token} (h : Statements ts ss)
    (hs : s ∈ ss) : ∃ us, Statement us s := by
  induction ss generalizing ts with
  | nil => cases hs
  | cons b ss ih =>
    cases h with
    | cons hb hss =>
      rcases List.mem_cons.mp hs with rfl | hs
      · exact ⟨_, hb⟩
      · exact ih hss hs

/-- Every statement inside a derived one is derived. -/
theorem instruction_of_within {s b : Stmt} (h : s.Within b) {ts : List Token}
    (hb : Instruction ts b) : ∃ us, Instruction us s := by
  induction h generalizing ts with
  | self => exact ⟨ts, hb⟩
  | thenBody _ ih =>
    cases hb with
    | statement hb =>
      cases hb with
      | ifThen _ hbody => exact ih hbody
      | ifElse _ hbody _ _ => exact ih hbody
  | elseBody _ ih =>
    cases hb with
    | statement hb =>
      cases hb with
      | ifElse _ _ _ hbody => exact ih hbody
  | whileBody _ ih =>
    cases hb with
    | statement hb =>
      cases hb with
      | whileLoop _ hbody => exact ih hbody
  | block hmem _ ih =>
    -- No rule for a single statement gives a block.
    cases hb with
    | statement hb => cases hb
    | block hss =>
      obtain ⟨us, hbody⟩ := statement_of_mem hss hmem
      exact ih (.statement hbody)

/-- The body of each function is spelled by some tokens. -/
theorem statements_of_mem_functions {fs : List FunctionDecl} {f : FunctionDecl} {ts : List Token}
    (h : Functions ts fs) (hf : f ∈ fs) : ∃ us, Statements us f.body := by
  induction fs generalizing ts with
  | nil => cases hf
  | cons g fs ih =>
    cases h with
    | cons hg hfs =>
      rcases List.mem_cons.mp hf with rfl | hf
      · cases hg with
        | mk _ _ hbody => exact ⟨_, hbody⟩
      · exact ih hfs hf

/-- No variable of a derived program is declared with the type
`nothing`. -/
theorem ne_nothing_of_declares {program : Program} {ts : List Token}
    (h : Functions ts program.functions) {s : Stmt} (hs : program.Contains s) {name : String}
    {type : DeclaredType} (hdeclares : s.Declares name type) : type ≠ .nothing := by
  obtain ⟨f, hf, b, hb, hwithin⟩ := hs
  obtain ⟨initial, p, hdeclare⟩ := hdeclares
  obtain ⟨us, hbody⟩ := statements_of_mem_functions h hf
  obtain ⟨vs, hstatement⟩ := statement_of_mem hbody hb
  obtain ⟨ws, hderived⟩ := instruction_of_within (hdeclare.trans hwithin) (.statement hstatement)
  cases hderived with
  | statement hderived =>
    cases hderived with
    | declare htype => cases htype <;> decide
    | declareWith htype _ => cases htype <;> decide

end Grammar

end ScalarScript
