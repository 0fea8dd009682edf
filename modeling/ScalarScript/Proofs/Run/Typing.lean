import ScalarScript.Proofs.Parser.Program
import ScalarScript.Proofs.Run.Outcome
import ScalarScript.Proofs.Tree

/-!
# `ScalarScript.Proofs.Run.Typing`: variables and results keep their types

The language checks types when it runs, at three places: a declaration
stores a value of its type, an assignment asks for the type of the old
value, and a call stores the result of the function's type. Parameters
take whatever they are given.

`Frame.Grows declared f f'` says what may become of a frame: the
variables of `f` keep their types, and each new one has a type with
which `declared` says it was declared. One declaration and one
assignment are such steps, the relation is transitive, and
`Stmt.exec_grows` carries it over all of execution.

`exec_stable_types` joins this with the parser, which never declares a
variable of type `nothing`, and with the calls of functions.
-/

set_option autoImplicit false

namespace ScalarScript

/-! ### Values that are stored -/

/-- What a type holds is of this type. -/
theorem Value.type_of_store? {type : DeclaredType} {v w : Value} (h : v.store? type = some w) :
    w.type = type.valueType := by
  unfold store? at h
  split at h <;> cases h <;> rfl

/-- What is stored under a type is of this type. -/
theorem Value.type_of_stored {type : DeclaredType} {destination : Destination} {name : String}
    {p : Position} {v w : Value} (h : v.stored type destination name p = .ok w) :
    w.type = type.valueType := by
  unfold stored at h
  split at h
  · cases h
    exact Value.type_of_store? ‹_›
  · cases h

/-- The value that a variable starts with is of its type. -/
theorem Value.type_zero (type : DeclaredType) : (Value.zero type).type = type.valueType := by
  cases type <;> rfl

/-- No type that a program can declare holds truth values. -/
theorem DeclaredType.valueType_ne_bool (type : DeclaredType) : type.valueType ≠ .bool := by
  cases type <;> decide

/-! ### Frames that grow -/

namespace Frame

/-- The variables of `f` keep their types in `f'`, and each variable that
only `f'` has is of a type with which it was declared. -/
structure Grows (declared : String → DeclaredType → Prop) (f f' : Frame) : Prop where
  keeps : ∀ x v, f.get? x = some v → ∃ w, f'.get? x = some w ∧ w.type = v.type
  adds : ∀ x w, f.get? x = none → f'.get? x = some w →
    ∃ type, declared x type ∧ w.type = type.valueType

variable {declared : String → DeclaredType → Prop} {f g h : Frame}

/-- A frame grows to itself. -/
theorem Grows.refl (f : Frame) : Grows declared f f where
  keeps := fun _ v hv => ⟨v, hv, rfl⟩
  adds := fun _ _ hnone hsome => by rw [hnone] at hsome; cases hsome

/-- A frame that grows and grows again grows. -/
theorem Grows.trans (hfg : Grows declared f g) (hgh : Grows declared g h) :
    Grows declared f h where
  keeps := by
    intro x v hv
    obtain ⟨w, hw, hvw⟩ := hfg.keeps x v hv
    obtain ⟨u, hu, hwu⟩ := hgh.keeps x w hw
    exact ⟨u, hu, hwu.trans hvw⟩
  adds := by
    intro x u hnone hu
    -- The variable is new in `h`, or it was new in `g` and has kept its type since.
    cases hg : g.get? x with
    | none => exact hgh.adds x u hg hu
    | some w =>
      obtain ⟨type, hdeclared, hw⟩ := hfg.adds x w hnone hg
      obtain ⟨u', hu', hwu⟩ := hgh.keeps x w hg
      rw [hu] at hu'
      cases hu'
      exact ⟨type, hdeclared, hwu.trans hw⟩

/-- A frame that grows by some declarations grows by more of them. -/
theorem Grows.mono {declared' : String → DeclaredType → Prop} (hfg : Grows declared f g)
    (himp : ∀ x type, declared x type → declared' x type) : Grows declared' f g where
  keeps := hfg.keeps
  adds := by
    intro x w hnone hw
    obtain ⟨type, hdeclared, htype⟩ := hfg.adds x w hnone hw
    exact ⟨type, himp x type hdeclared, htype⟩

/-- Nothing happens to the frame. -/
theorem Grows.of_pure {signal signal' : Signal} {t t' : Terminal}
    (hpure : (pure (f, signal) : Run RuntimeError (Frame × Signal)) t = .ok (g, signal') t') :
    Grows declared f g := by
  obtain ⟨hg, -⟩ := (Run.pure_eq_ok_iff _ _ _ _).mp hpure
  cases hg
  exact .refl f

/-- The variable that is set has the value, and the others keep theirs. -/
theorem get?_set (f : Frame) (name other : String) (v : Value) :
    (f.set name v).get? other = if other = name then some v else f.get? other :=
  Bindings.get?_set f.bindings name other v

/-- A new variable gets a value of its type. -/
theorem grows_set_new {name : String} {type : DeclaredType} {v : Value}
    (hnew : f.contains name = false) (hdeclared : declared name type)
    (hv : v.type = type.valueType) : Grows declared f (f.set name v) where
  keeps := by
    intro x w hw
    refine ⟨w, ?_, rfl⟩
    rw [get?_set, if_neg, hw]
    rintro rfl
    have hnone : (f.get? x).isSome = false := hnew
    rw [hw] at hnone
    cases hnone
  adds := by
    intro x w hnone hw
    rw [get?_set] at hw
    split at hw
    · rename_i hx
      cases hw
      exact ⟨type, hx ▸ hdeclared, hv⟩
    · rw [hnone] at hw
      cases hw

/-- An old variable gets a value of the type of its old value. -/
theorem grows_set_old {name : String} {old v : Value} (hold : f.get? name = some old)
    (hv : old.type = v.type) : Grows declared f (f.set name v) where
  keeps := by
    intro x w hw
    rw [get?_set]
    split
    · rename_i hx
      rw [hx, hold] at hw
      cases hw
      exact ⟨v, rfl, hv.symm⟩
    · exact ⟨w, hw, rfl⟩
  adds := by
    intro x w hnone hw
    rw [get?_set] at hw
    split at hw
    · rename_i hx
      rw [hx, hold] at hnone
      cases hnone
    · rw [hnone] at hw
      cases hw

end Frame

/-! ### Statements -/

variable {declared : String → DeclaredType → Prop}

/-- A declaration adds its variable, with its type. -/
theorem declareVariable_grows {call : Caller} {name : String} {type : DeclaredType}
    {initial : Option Expr} {p : Position} {f f' : Frame} {t t' : Terminal}
    (hdeclared : declared name type)
    (h : declareVariable call name type initial p f t = .ok f' t') : f.Grows declared f' := by
  unfold declareVariable at h
  split at h
  · simp at h
  · rename_i hcontains
    have hnew : f.contains name = false := Bool.eq_false_iff.mpr hcontains
    split at h
    · rw [Run.pure_eq_ok_iff] at h
      obtain ⟨rfl, -⟩ := h
      exact Frame.grows_set_new hnew hdeclared (Value.type_zero type)
    · obtain ⟨v, t₁, -, h⟩ := (Run.bind_eq_ok_iff _ _ _ _ _).mp h
      obtain ⟨w, t₂, hstored, h⟩ := (Run.bind_eq_ok_iff _ _ _ _ _).mp h
      rw [Run.pure_eq_ok_iff] at h
      obtain ⟨rfl, -⟩ := h
      have hw := ((Run.ofExcept_eq_ok_iff _ _ _ _).mp hstored).1
      exact Frame.grows_set_new hnew hdeclared (Value.type_of_stored hw)

/-- An assignment adds no variable, and keeps the type of the one it sets. -/
theorem assignVariable_grows {call : Caller} {name : String} {e : Expr} {p : Position}
    {f f' : Frame} {t t' : Terminal} (h : assignVariable call name e p f t = .ok f' t') :
    f.Grows declared f' := by
  unfold assignVariable at h
  cases hold : f.get? name with
  | none => simp [hold] at h
  | some old =>
    rw [hold] at h
    obtain ⟨v, t₁, -, h⟩ := (Run.bind_eq_ok_iff _ _ _ _ _).mp h
    split at h
    · rename_i htype
      rw [Run.pure_eq_ok_iff] at h
      obtain ⟨rfl, -⟩ := h
      exact Frame.grows_set_old hold htype
    · simp at h

/-- A statement that ends well has let its frame grow, by the variables
that are declared in it. -/
theorem Stmt.exec_grows (call : Caller) (fuel : Nat) (s : Stmt) {f f' : Frame} {signal : Signal}
    {t t' : Terminal} (h : s.exec call fuel f t = .ok (f', signal) t') :
    f.Grows s.Declares f' := by
  induction s using Stmt.induction generalizing f f' signal t t' with
  | declare name type initial p =>
    rw [Stmt.exec] at h
    obtain ⟨g, t₁, hdeclare, h⟩ := (Run.bind_eq_ok_iff _ _ _ _ _).mp h
    exact (declareVariable_grows ⟨initial, p, .self⟩ hdeclare).trans (.of_pure h)
  | assign name e p =>
    rw [Stmt.exec] at h
    obtain ⟨g, t₁, hassign, h⟩ := (Run.bind_eq_ok_iff _ _ _ _ _).mp h
    exact (assignVariable_grows hassign).trans (.of_pure h)
  | ifStmt c thenBody elseBody p hthen helse =>
    rw [Stmt.exec] at h
    obtain ⟨b, t₁, -, h⟩ := (Run.bind_eq_ok_iff _ _ _ _ _).mp h
    cases b with
    | true => exact (hthen h).mono fun x type hd => hd.of_within (.thenBody .self)
    | false =>
      cases elseBody with
      | none => exact .of_pure h
      | some body =>
        exact (helse body rfl h).mono fun x type hd => hd.of_within (.elseBody .self)
  | whileStmt c body p hbody =>
    rw [Stmt.exec] at h
    refine rounds_keeps .refl .trans (fun hround => ?_) fuel h
    exact (hbody hround).mono fun x type hd => hd.of_within (.whileBody .self)
  | returnStmt value p =>
    cases value with
    | none => exact .of_pure h
    | some e =>
      rw [Stmt.exec] at h
      obtain ⟨v, t₁, -, h⟩ := (Run.bind_eq_ok_iff _ _ _ _ _).mp h
      exact .of_pure h
  | breakStmt p | continueStmt p => exact .of_pure h
  | call function args p =>
    -- The function has a frame of its own, so nothing is asked of what it does.
    rw [Stmt.exec] at h
    obtain ⟨vs, t₁, -, h⟩ := (Run.bind_eq_ok_iff _ _ _ _ _).mp h
    obtain ⟨v, t₂, -, h⟩ := (Run.bind_eq_ok_iff _ _ _ _ _).mp h
    exact .of_pure h
  | block body p hbody =>
    rw [Stmt.exec] at h
    refine execAll_keeps .refl .trans (fun s hs _ _ _ _ _ hexec => ?_) h
    exact (hbody s hs hexec).mono fun x type hd => hd.of_within (.block hs .self)

/-! ### Calls -/

/-- A call of a function of the program gives a value of the type of its
result. -/
theorem Scope.type_of_call {scope : Scope} {remaining : Nat} {name : String} {args : List Value}
    {p : Position} {t t' : Terminal} {v : Value} {f : FunctionDecl}
    (h : scope.call remaining name args p t = .ok v t')
    (hf : scope.program.resolve? name = some (.declared f)) : v.type = f.result.valueType := by
  by_cases hargs : args.length = f.parameters.length
  · by_cases hremaining : remaining ≤ 1
    · rw [Scope.call_of_le_one hf hargs hremaining] at h
      simp at h
    · obtain ⟨budget, rfl⟩ : ∃ budget, remaining = budget + 2 := ⟨remaining - 2, by omega⟩
      rw [Scope.call_of_declared hf hargs] at h
      -- However the body ended, its result is stored with the declared type.
      obtain ⟨⟨g, signal⟩, t₁, -, h⟩ := (Run.bind_eq_ok_iff _ _ _ _ _).mp h
      exact Value.type_of_stored ((Run.ofExcept_eq_ok_iff _ _ _ _).mp h).1
  · rw [Scope.call_of_length_ne hf hargs] at h
    simp at h

/-- The frames that one may become later on, as statements are run in
it. -/
inductive Scope.Later (scope : Scope) (remaining : Nat) (f : Frame) : Frame → Prop
  | now : Later scope remaining f f
  | step {g h : Frame} {s : Stmt} {signal : Signal} {t t' : Terminal} :
      Later scope remaining f g →
      s.exec (scope.call remaining) scope.fuel g t = .ok (h, signal) t' →
      Later scope remaining f h

/-- A variable keeps its type for the rest of the frame's life. -/
theorem Scope.Later.keeps {scope : Scope} {remaining : Nat} {f f' : Frame}
    (h : scope.Later remaining f f') {x : String} {v : Value} (hv : f.get? x = some v) :
    ∃ w, f'.get? x = some w ∧ w.type = v.type := by
  induction h with
  | now => exact ⟨v, hv, rfl⟩
  | step _ hexec ih =>
    obtain ⟨w, hw, hvw⟩ := ih
    obtain ⟨u, hu, hwu⟩ := (Stmt.exec_grows _ _ _ hexec).keeps x w hw
    exact ⟨u, hu, hwu.trans hvw⟩

/-- In a program that was read, a statement that ends well leaves every
variable with its type. The variables that it adds are declared in it,
with a type other than `nothing`, and have that type from then on. And a
call of a function gives a value of the type that the function declares
for its result. -/
theorem exec_stable_types {σ : Type} [TokenSource σ] (parser : Parser σ) (scope : Scope)
    (hparsed : parser.program.1 = .ok scope.program) :
    (∀ s, scope.program.Contains s → ∀ remaining f f' signal t t',
      s.exec (scope.call remaining) scope.fuel f t = .ok (f', signal) t' →
        (∀ x v, f.get? x = some v → ∃ w, f'.get? x = some w ∧ w.type = v.type) ∧
        ∀ x w, f.get? x = none → f'.get? x = some w →
          ∃ type, s.Declares x type ∧ type ≠ .nothing ∧
            ∀ f'', scope.Later remaining f' f'' →
              ∃ u, f''.get? x = some u ∧ u.type = type.valueType) ∧
    ∀ remaining name args p t v t', scope.call remaining name args p t = .ok v t' →
      ∀ g, scope.program.resolve? name = some (.declared g) →
        v.type = g.result.valueType ∧ v.type ≠ .bool ∧ (v.type = .int → g.result = .int) := by
  -- All that is needed of the parser is that it reads what the grammar derives.
  obtain ⟨ts, -, -, -, -, -, hderived, -⟩ := (Parser.program_iff _ _).mp hparsed
  constructor
  · intro s hs remaining f f' signal t t' hexec
    have hgrows := Stmt.exec_grows _ _ _ hexec
    refine ⟨hgrows.keeps, ?_⟩
    intro x w hnone hw
    obtain ⟨type, hdeclares, hwtype⟩ := hgrows.adds x w hnone hw
    refine ⟨type, hdeclares, Grammar.ne_nothing_of_declares hderived hs hdeclares, ?_⟩
    intro f'' hlater
    obtain ⟨u, hu, hwu⟩ := hlater.keeps hw
    exact ⟨u, hu, hwu.trans hwtype⟩
  · intro remaining name args p t v t' hcall g hg
    have hv := Scope.type_of_call hcall hg
    refine ⟨hv, hv ▸ g.result.valueType_ne_bool, ?_⟩
    intro hint
    rw [hv] at hint
    cases hresult : g.result with
    | int => rfl
    | float | string | nothing =>
      rw [hresult] at hint
      cases hint

/-- The text `f() returns int { var x: int; }`, read from its second
token on: its declaration gives `x` the type `int` for good. -/
theorem exec_stable_types_int_variable :
    let declaration : Stmt := .declare "x" .int none ⟨1, 19, 19⟩
    let function : FunctionDecl := ⟨"f", [], .int, [declaration], ⟨1, 17, 17⟩, .start⟩
    let scope : Scope := ⟨Program.empty.afterOffers [function], 2, 1⟩
    let f' := (Frame.enter "f" 2).set "x" (.int 0)
    declaration.exec (scope.call 2) 1 (.enter "f" 2) (.scripted []) =
      .ok (f', .through) (.scripted []) ∧
    ∃ type, declaration.Declares "x" type ∧ type ≠ .nothing ∧
      ∀ f'', scope.Later 2 f' f'' → ∃ u, f''.get? "x" = some u ∧ u.type = type.valueType := by
  have hparsed : (Parser.program (⟨⟨.identifier "f", .start⟩,
      ⟨⟨"() returns int \x7b var x: int; \x7d".toList, ⟨1, 2, 2⟩⟩, 0⟩, 0⟩ : Parser Scanner)).1 =
      .ok (Program.empty.afterOffers
        [⟨"f", [], .int, [.declare "x" .int none ⟨1, 19, 19⟩], ⟨1, 17, 17⟩, .start⟩]) := by with_unfolding_all rfl
  intro declaration function scope f'
  have hcontains : scope.program.Contains declaration :=
    ⟨function, List.mem_singleton.mpr rfl, declaration, by simp [function], .self⟩
  have hexec : declaration.exec (scope.call 2) 1 (.enter "f" 2) (.scripted []) =
      .ok (f', .through) (.scripted []) := rfl
  have hstable := (exec_stable_types _ scope hparsed).1 declaration hcontains 2 _ _ _ _ _ hexec
  exact ⟨hexec, hstable.2 "x" (.int 0) rfl rfl⟩

end ScalarScript
