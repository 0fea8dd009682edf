import ScalarScript.Proofs.Run.Likeness

/-!
# `ScalarScript.Proofs.Run.Extension`: programs with further functions

A run looks functions up by their names, and the names of a program are
pairwise different. So neither the order of the functions matters nor
whether there are functions that the run does not call. Take a program
whose functions are all in a second program. As long as the run of the
first finds the functions that it calls, the run of the second finds the
same ones, and the two runs are the same (`Program.ends_iff_of_subset`).

The first run may look for a function that only the second program has.
The error that there is no such function is therefore `lost` in the
likeness `Run.extension`, and so is the error that there is no `main`.
-/

set_option autoImplicit false

namespace ScalarScript

/-- The error that a function is not there. -/
def RuntimeError.isMissing : RuntimeError → Bool
  | .undefinedFunction _ _ | .noMainFunction => true
  | _ => false

/-- Two runs that are the same, up to the error that a function is not
there. -/
def Run.extension : Run.Likeness :=
  .atOneTerminal Eq fun e => e.isMissing = true

namespace Program

variable {program program' : Program}

/-- A name that the first program knows stands for the same function in
the second. -/
theorem resolve?_of_subset (hsubset : ∀ f ∈ program.functions, f ∈ program'.functions)
    {name : String} {c : Callable} (h : program.resolve? name = some c) :
    program'.resolve? name = some c := by
  unfold resolve? at h ⊢
  cases hbuiltin : Builtin.ofName? name with
  | some b =>
    rw [hbuiltin] at h
    exact h
  | none =>
    rw [hbuiltin] at h
    dsimp only at h ⊢
    rw [Option.map_eq_some_iff] at h ⊢
    obtain ⟨f, hf, hc⟩ := h
    obtain ⟨hmem, hname⟩ := (function?_eq_some_iff program name f).mp hf
    exact ⟨f, (function?_eq_some_iff program' name f).mpr ⟨hsubset f hmem, hname⟩, hc⟩

/-- A program that defines no builtin function again can start. -/
theorem clash?_eq_none (h : ∀ b : Builtin, ¬ program.Defines b.name) : program.clash? = none := by
  unfold clash?
  rw [List.find?_eq_none]
  intro f hf hname
  obtain ⟨b, hb⟩ := Option.isSome_iff_exists.mp hname
  have hbname : b.name = f.name := by simpa using List.find?_some hb
  apply h b
  rw [hbname]
  exact List.mem_map_of_mem hf

/-- Two runs, of a program and of one that has all its functions. -/
theorem run_agrees_of_subset (hnew : ∀ b : Builtin, ¬ program.Defines b.name)
    (hnew' : ∀ b : Builtin, ¬ program'.Defines b.name)
    (hsubset : ∀ f ∈ program.functions, f ∈ program'.functions) (limits : Limits) (fuel : Nat) :
    Run.Agrees Run.extension Eq (program.run limits fuel) (program'.run limits fuel) := by
  refine run_agrees limits fuel ?_ ?_ ?_ ?_
  · intro name c hname
    refine ⟨c, resolve?_of_subset hsubset hname, ?_⟩
    cases c with
    | builtin b => exact .builtin
    | declared f => exact .declared (.refl (fun _ => rfl) f)
  · -- A name that the first program does not know may be one of the further functions.
    intro name p _
    exact .inr rfl
  · rw [clash?_eq_none hnew, clash?_eq_none hnew']
    exact .none
  · intro _
    exact .inr rfl

/-- The order of the functions and further functions do not matter. Take
two programs that define no builtin function again, the second with all
the functions of the first, in any order, and perhaps more. If the first
one ends, and not because a function or `main` is not there, the second
ends in the same way, with the same value or error and the same terminal,
and in no other way. -/
theorem ends_iff_of_subset (program program' : Program)
    (hnew : ∀ b : Builtin, ¬ program.Defines b.name)
    (hnew' : ∀ b : Builtin, ¬ program'.Defines b.name)
    (hsubset : ∀ f ∈ program.functions, f ∈ program'.functions)
    (limits : Limits) (start : Terminal) (outcome : Outcome RuntimeError Value)
    (hends : Ends (program.run limits) start outcome)
    (hfunction : ∀ name p t, outcome ≠ .error (.undefinedFunction name p) t)
    (hmain : ∀ t, outcome ≠ .error .noMainFunction t)
    (outcome' : Outcome RuntimeError Value) :
    Ends (program'.run limits) start outcome' ↔ outcome' = outcome := by
  obtain ⟨hne, fuel, hrun⟩ := hends
  have hagrees := run_agrees_of_subset hnew hnew' hsubset limits fuel start start rfl
  rw [hrun] at hagrees
  have hsame : program'.run limits fuel start = outcome := by
    generalize program'.run limits fuel start = result at hagrees
    cases hagrees with
    | ok hv ht => cases hv; cases ht; rfl
    | error he ht => cases he.eq fun _ _ => id; cases ht; rfl
    | unfinished => rfl
    | @lost e t _ he =>
      cases e with
      | undefinedFunction name p => exact absurd rfl (hfunction name p t)
      | noMainFunction => exact absurd rfl (hmain t)
      | _ => cases he
  have hends' : Ends (program'.run limits) start outcome := ⟨hne, fuel, hsame⟩
  exact hends'.iff_eq (program'.settles_run limits) outcome'

/-- A function that is called, in front of `main` or behind it, and with a
further function between the two. -/
theorem ends_iff_of_subset_reordered :
    let p : Position := .start
    let one : FunctionDecl := ⟨"one", [], .int, [.returnStmt (some (.int 1 p)) p], p, p⟩
    let two : FunctionDecl := ⟨"two", [], .int, [.call "three" [] p], p, p⟩
    let main : FunctionDecl :=
      ⟨"main", [], .int, [.returnStmt (some (.call "one" [] p)) p], p, p⟩
    ∀ outcome, Ends ((empty.afterOffers [one, two, main]).run ⟨2, 0⟩) (.scripted []) outcome ↔
      outcome = .ok (.int 1) (.scripted []) := by
  intro p one two main
  have hrun : (empty.afterOffers [main, one]).run ⟨2, 0⟩ 0 (.scripted []) =
      .ok (.int 1) (.scripted []) := by rfl
  refine ends_iff_of_subset (empty.afterOffers [main, one]) (empty.afterOffers [one, two, main])
    ?_ ?_ ?_ ⟨2, 0⟩ (.scripted []) _ ⟨by simp, 0, hrun⟩ (by simp) (by simp)
  · intro b
    cases b <;> decide
  · intro b
    cases b <;> decide
  · have hfew : (empty.afterOffers [main, one]).functions = [main, one] := by rfl
    have hall : (empty.afterOffers [one, two, main]).functions = [one, two, main] := by rfl
    intro f hf
    simp only [hfew, hall, List.mem_cons, List.not_mem_nil, or_false] at hf ⊢
    rcases hf with hf | hf
    · exact .inr (.inr hf)
    · exact .inl hf

end Program

end ScalarScript
