import ScalarScript.Proofs.Run.Simulation

/-!
# `ScalarScript.Proofs.Run.Likeness`: runs that are alike

Two runs of programs that are alike end alike. A `Run.Likeness` says what
this means: how the places of the two programs are related, and how the
two terminals are. The relation between terminals is kept when both print
the same text, and both read the same line. A likeness also has errors
that are `lost`. Where the first run ends in such an error nothing is said
of the second; all other ends agree, and the one run has no outcome
exactly if the other has none (`Outcome.Agrees`).

`Run.Agrees` is a congruence for every likeness, so it holds between whole
runs. `Program.run_agrees` asks for it only that the names in calls stand
for functions that are alike. `Program.Alike.run_agrees` is the case of
two programs that differ in their places.
-/

set_option autoImplicit false

namespace ScalarScript

/-- How two runs are alike. -/
structure Run.Likeness where
  /-- The places of the two programs. -/
  place : Position → Position → Prop
  /-- The terminals at which the two runs stand. -/
  terminal : Terminal → Terminal → Prop
  /-- The errors of the first run that say nothing of the second. -/
  lost : RuntimeError → Prop
  print : ∀ {t t'} text, terminal t t' → terminal (t.print text) (t'.print text)
  read : ∀ {t t'}, terminal t t' → t'.read.1 = t.read.1 ∧ terminal t.read.2 t'.read.2

/-- Two runs at the same terminal. -/
def Run.Likeness.atOneTerminal (place : Position → Position → Prop) (lost : RuntimeError → Prop) :
    Run.Likeness where
  place := place
  terminal := Eq
  lost := lost
  print := fun text h => by rw [h]
  read := fun h => by rw [h]; exact ⟨rfl, rfl⟩

/-- Two runs end with values in the relation `V`, with errors that are
alike, or with no outcome; or the first ends in an error that is lost. -/
inductive Outcome.Agrees (L : Run.Likeness) {α α' : Type} (V : α → α' → Prop) :
    Outcome RuntimeError α → Outcome RuntimeError α' → Prop
  | ok {a : α} {a' : α'} {t t' : Terminal} :
      V a a' → L.terminal t t' → Agrees L V (.ok a t) (.ok a' t')
  | error {e e' : RuntimeError} {t t' : Terminal} :
      e.Alike L.place e' → L.terminal t t' → Agrees L V (.error e t) (.error e' t')
  | lost {e : RuntimeError} {t : Terminal} {outcome' : Outcome RuntimeError α'} :
      L.lost e → Agrees L V (.error e t) outcome'
  | unfinished : Agrees L V .unfinished .unfinished

/-- Two runs that agree at any two terminals that are related. -/
def Run.Agrees (L : Run.Likeness) : RunRelation := fun _ _ V r r' =>
  ∀ t t', L.terminal t t' → (r t).Agrees L V (r' t')

variable {L : Run.Likeness}

/-- Runs that agree are put together to runs that agree. -/
theorem Run.agrees_congruence (L : Run.Likeness) : Run.Congruence L.place (Run.Agrees L) where
  value := fun h _ _ ht => .ok h ht
  fail := fun he _ _ ht => .error he ht
  stuck := fun _ _ _ => .unfinished
  bind := by
    intro α α' β β' V W r r' next next' hr hnext t t' ht
    have hagrees := hr t t' ht
    rw [Run.bind_apply, Run.bind_apply]
    generalize r t = outcome at hagrees
    generalize r' t' = outcome' at hagrees
    cases hagrees with
    | ok ha ht => exact hnext _ _ ha _ _ ht
    | error he ht => exact .error he ht
    | lost he => exact .lost he
    | unfinished => exact .unfinished

/-! ### Builtin functions -/

namespace Builtin

variable {p p' : Position}

/-- Lines are read alike at terminals that are alike. -/
theorem readLine_agrees (hp : L.place p p') : Run.Agrees L Eq (readLine p) (readLine p') := by
  intro t t' ht
  have hread := L.read ht
  unfold readLine
  -- Both terminals give the same line or the same error.
  rcases hfirst : t.read with ⟨result, t₁⟩
  rcases hsecond : t'.read with ⟨result', t₁'⟩
  rw [hfirst, hsecond] at hread
  obtain ⟨hresult, ht₁⟩ := hread
  dsimp only at hresult ht₁
  subst hresult
  cases result' with
  | ok line => exact .ok rfl ht₁
  | error e => exact .error (.terminal hp) ht₁

/-- A conversion succeeds on both sides or on none. -/
theorem converted_agrees (target : DeclaredType) (v : Value) (hp : L.place p p')
    (o : Option Value) : Run.Agrees L Eq (converted target v p o) (converted target v p' o) := by
  cases o with
  | some w => exact (Run.agrees_congruence L).value rfl
  | none => exact (Run.agrees_congruence L).fail (.castingError hp)

/-- A greatest or least value is found on both sides or on none. -/
theorem found_agrees (b : Builtin) (hp : L.place p p') (r : Except OperandTypes Value) :
    Run.Agrees L Eq (b.found p r) (b.found p' r) := by
  cases r with
  | ok v => exact (Run.agrees_congruence L).value rfl
  | error types => exact (Run.agrees_congruence L).fail (.badOperandType hp)

/-- A builtin function is called alike on both sides. -/
theorem call_agrees (b : Builtin) (args : List Value) (hp : L.place p p') :
    Run.Agrees L Eq (b.call args p) (b.call args p') := by
  unfold Builtin.call
  split
  · intro t t' ht
    exact .ok rfl (L.print _ ht)
  · exact readLine_agrees hp
  · exact converted_agrees .int _ hp _
  · exact converted_agrees .float _ hp _
  · exact converted_agrees .string _ hp _
  · exact found_agrees .findMax hp _
  · exact found_agrees .findMin hp _
  · exact (Run.agrees_congruence L).fail (.argumentCountMismatch hp)

end Builtin

/-! ### Programs -/

namespace Program

variable {program program' : Program}

/-- The function that is not there is not there in the second scope
either, or its error is lost. -/
theorem undefined_agrees (limits : Limits) (fuel remaining : Nat) {name : String}
    (args : List Value) {p p' : Position} (hp : L.place p p')
    (h : program'.resolve? name = none ∨ L.lost (.undefinedFunction name p)) :
    Run.Agrees L Eq (Run.fail (.undefinedFunction name p))
      (Scope.call ⟨program', limits.callDepth, fuel⟩ remaining name args p') := by
  rcases h with hname | hlost
  · rw [Scope.call_of_none hname]
    exact (Run.agrees_congruence L).fail (.undefinedFunction hp)
  · intro t t' _
    exact .lost hlost

/-- Two programs are run alike if the names in calls stand for functions
that are alike. -/
theorem run_agrees (limits : Limits) (fuel : Nat)
    (hresolve : ∀ {name c}, program.resolve? name = some c →
      ∃ c', program'.resolve? name = some c' ∧ c.Alike L.place c')
    (hundefined : ∀ {name p}, program.resolve? name = none →
      program'.resolve? name = none ∨ L.lost (.undefinedFunction name p))
    (hclash : Option.Rel (FunctionDecl.Alike L.place) program.clash? program'.clash?)
    (hmain : program.function? "main" = none →
      program'.function? "main" = none ∨ L.lost .noMainFunction) :
    Run.Agrees L Eq (program.run limits fuel) (program'.run limits fuel) := by
  have hR := Run.agrees_congruence L
  have hmirrors : Scope.Mirrors L.place (Run.Agrees L) 0 ⟨program, limits.callDepth, fuel⟩
      ⟨program', limits.callDepth, fuel⟩ :=
    { rounds := .same fuel
      resolve := hresolve
      builtin := fun b args _ _ hp => b.call_agrees args hp
      undefined := fun remaining args hname hp =>
        undefined_agrees limits fuel remaining args hp (hundefined hname)
      exceeded := by
        intro remaining name args p f hremaining hname hargs
        obtain ⟨c', hname', halike⟩ := hresolve hname
        cases halike with
        | @declared _ f' hf =>
          -- Both budgets are used up here, and the error names no place.
          have hlength : f.parameters.length = f'.parameters.length := hf.parameters.length_eq
          rw [Nat.add_zero, Scope.call_of_le_one (s := ⟨program', limits.callDepth, fuel⟩) hname'
            (hlength ▸ hargs) hremaining, ← hf.name_eq]
          exact hR.fail .callDepthExceeded }
  refine Scope.run_related hR hmirrors rfl hclash ?_
  intro hnone hclash'
  rcases hmain hnone with hnone' | hlost
  · have hrun : Scope.run ⟨program', limits.callDepth, fuel⟩ = Run.fail .noMainFunction := by
      rw [Scope.run, hclash', hnone']
    rw [hrun]
    exact hR.fail .noMainFunction
  · intro t t' _
    exact .lost hlost

/-! ### Programs that differ in their places -/

/-- The first functions with names of a kind are alike. -/
theorem find?_alike {R : Position → Position → Prop} {fs fs' : List FunctionDecl}
    (h : List.Forall₂ (FunctionDecl.Alike R) fs fs') (kind : String → Bool) :
    Option.Rel (FunctionDecl.Alike R) (fs.find? fun f => kind f.name)
      (fs'.find? fun f => kind f.name) := by
  induction h with
  | nil => exact .none
  | @cons f f' fs fs' hf _ ih =>
    rw [List.find?_cons, List.find?_cons, ← hf.name_eq]
    cases kind f.name with
    | true => exact .some hf
    | false => exact ih

/-- A name stands for functions that are alike in programs that are alike. -/
theorem Alike.function? {R : Position → Position → Prop} (h : program.Alike R program')
    (name : String) :
    Option.Rel (FunctionDecl.Alike R) (program.function? name) (program'.function? name) := by
  rw [function?_eq_find?, function?_eq_find?]
  exact find?_alike h fun n => n == name

/-- A name stands for builtin functions or for functions that are alike in
programs that are alike. -/
theorem Alike.resolve? {R : Position → Position → Prop} (h : program.Alike R program')
    (name : String) :
    Option.Rel (Callable.Alike R) (program.resolve? name) (program'.resolve? name) := by
  unfold Program.resolve?
  cases Builtin.ofName? name with
  | some b => exact .some .builtin
  | none =>
    have hfunction := h.function? name
    dsimp only
    generalize program.function? name = o at hfunction
    generalize program'.function? name = o' at hfunction
    cases hfunction with
    | none => exact .none
    | some hf => exact .some (.declared hf)

/-- Two programs that differ in their places are run alike. -/
theorem Alike.run_agrees (h : program.Alike L.place program') (limits : Limits) (fuel : Nat) :
    Run.Agrees L Eq (program.run limits fuel) (program'.run limits fuel) := by
  refine Program.run_agrees limits fuel ?_ ?_ (find?_alike h fun n => (Builtin.ofName? n).isSome) ?_
  · intro name c hname
    exact exists_of_optionRel (hname ▸ h.resolve? name)
  · intro name p hname
    exact .inl (eq_none_of_optionRel (hname ▸ h.resolve? name))
  · intro hmain
    exact .inl (eq_none_of_optionRel (hmain ▸ h.function? "main"))

end Program

end ScalarScript
