import Mathlib.Logic.Relation
import ScalarScript.Interpreter
import ScalarScript.Proofs.Run.Likeness

/-!
# `ScalarScript.Proofs.Run.Reuse`: one interpreter, several runs

A run leaves its table of functions and its terminal behind. The table
is filled anew when the next run starts, so it makes no difference
(`Interpreter.run_eq`). The terminal does: it keeps what was printed, and
the lines that were read are gone from it. `Interpreter.run_eq_fresh` says
that nothing else of a run is left to the next one. What a run adds to
the terminal and which lines it reads are what they are for an
interpreter that has not run before.
-/

set_option autoImplicit false

namespace ScalarScript

/-! ### The table of functions -/

namespace FunctionTable

variable {table : FunctionTable} {fs : List FunctionDecl}

/-- The entry that was made last for a name is found. -/
theorem find?_insert (table : FunctionTable) (name name' : String) (c : Callable) :
    (table.insert name c).find? name' = if name = name' then some c else table.find? name' := by
  unfold insert find?
  rw [List.find?_cons]
  by_cases h : name = name'
  · simp [h]
  · have hbeq : (name == name') = false := by simpa using h
    rw [hbeq, if_neg h]

/-- Entering functions with different names, in any order. -/
theorem find?_foldl_insert {α : Type} (key : α → String) (callable : α → Callable) (as : List α)
    (hkeys : (as.map key).Nodup) (table : FunctionTable) (name : String) :
    (as.foldl (fun table a => table.insert (key a) (callable a)) table).find? name =
      ((as.find? fun a => key a == name).map callable).or (table.find? name) := by
  induction as generalizing table with
  | nil => rfl
  | cons a as ih =>
    rw [List.map_cons, List.nodup_cons] at hkeys
    rw [List.foldl_cons, ih hkeys.2, find?_insert, List.find?_cons]
    by_cases h : key a = name
    · -- The name is not among the later ones.
      have hnone : (as.find? fun b => key b == name) = none := by
        rw [List.find?_eq_none]
        intro b hb hname
        exact hkeys.1 (h.trans (beq_iff_eq.mp hname).symm ▸ List.mem_map_of_mem hb)
      simp [h, hnone]
    · have hbeq : (key a == name) = false := by simpa using h
      rw [hbeq, if_neg h]

/-- A table that was cleared knows the builtin functions and no others. -/
theorem find?_clear_withBuiltins (table : FunctionTable) (name : String) :
    table.clear.withBuiltins.find? name = (Builtin.ofName? name).map .builtin := by
  have hnames : (Builtin.all.map Builtin.name).Nodup := by decide
  unfold withBuiltins
  rw [find?_foldl_insert Builtin.name .builtin Builtin.all hnames]
  exact Option.or_none

/-- Functions with new names are all entered. -/
theorem register_ok (hnames : (fs.map FunctionDecl.name).Nodup)
    (hnew : ∀ f ∈ fs, table.find? f.name = none) :
    (table.register fs).1 = .ok () ∧ ∀ name, (table.register fs).2.find? name =
      (table.find? name).or ((fs.find? fun f => f.name == name).map .declared) := by
  induction fs generalizing table with
  | nil =>
    refine ⟨rfl, fun name => ?_⟩
    show table.find? name = _
    simp
  | cons f fs ih =>
    rw [List.map_cons, List.nodup_cons] at hnames
    have hf : table.find? f.name = none := hnew f (by simp)
    have hnext : ∀ g ∈ fs, (table.insert f.name (.declared f)).find? g.name = none := by
      intro g hg
      have hne : f.name ≠ g.name := by
        intro heq
        exact hnames.1 (heq ▸ List.mem_map_of_mem hg)
      rw [find?_insert, if_neg hne]
      exact hnew g (by simp [hg])
    have hregister : table.register (f :: fs) =
        (table.insert f.name (.declared f)).register fs := by
      rw [register, hf]
      rfl
    obtain ⟨hok, hfind⟩ := ih hnames.2 hnext
    rw [hregister]
    refine ⟨hok, fun name => ?_⟩
    rw [hfind, find?_insert, List.find?_cons]
    by_cases h : f.name = name
    · subst h
      simp [hf]
    · have hbeq : (f.name == name) = false := by simpa using h
      rw [hbeq, if_neg h]

/-- Functions are registered in a row, as long as none clashes. -/
theorem register_append {fs gs : List FunctionDecl} (h : (table.register fs).1 = .ok ()) :
    table.register (fs ++ gs) = (table.register fs).2.register gs := by
  induction fs generalizing table with
  | nil => rfl
  | cons f fs ih =>
    rw [List.cons_append, register, register]
    by_cases hf : (table.find? f.name).isSome
    · rw [register, if_pos hf] at h
      cases h
    · rw [register, if_neg hf] at h
      rw [if_neg hf, if_neg hf]
      exact ih h

/-- The first function whose name the table has is refused. -/
theorem register_error (hnames : (fs.map FunctionDecl.name).Nodup) {f : FunctionDecl}
    (h : (fs.find? fun f => (table.find? f.name).isSome) = some f) :
    (table.register fs).1 = .error (.alreadyExists .aFunction f.name f.position) := by
  obtain ⟨hf, before, behind, rfl, hbefore⟩ := List.find?_eq_some_iff_append.mp h
  rw [List.map_append, List.nodup_append] at hnames
  have hnew : ∀ g ∈ before, table.find? g.name = none := by
    intro g hg
    simpa using hbefore g hg
  -- Those before it have new names, so the table still has the name when its turn comes.
  obtain ⟨hok, hfind⟩ := register_ok hnames.1 hnew
  have htaken : ((table.register before).2.find? f.name).isSome := by
    rw [hfind, Option.isSome_or, hf, Bool.true_or]
  rw [register_append hok, register, if_pos htaken]

end FunctionTable

/-! ### One run -/

namespace Interpreter

variable {i : Interpreter}

/-- Registering starts with a clear table and changes nothing but the
table. -/
theorem register_eq (i : Interpreter) :
    i.register = ((i.functions.clear.withBuiltins.register i.program.functions).1,
      { i with functions := (i.functions.clear.withBuiltins.register i.program.functions).2 }) := by
  rw [register, Program.intoFunctions_eq]

/-- A function that clashes is refused, at its place. -/
theorem register_of_clash {f : FunctionDecl} (h : i.program.clash? = some f) :
    i.register.1 = .error (.alreadyExists .aFunction f.name f.position) := by
  rw [register_eq]
  refine FunctionTable.register_error i.program.distinct ?_
  rw [← h, Program.clash?]
  congr
  funext g
  rw [FunctionTable.find?_clear_withBuiltins, Option.isSome_map]

/-- Where no name is taken, the table says what names stand for in the
program. -/
theorem register_of_no_clash (h : i.program.clash? = none) :
    i.register.1 = .ok () ∧ i.register.2.functions.find? = i.program.resolve? := by
  have hnew : ∀ f ∈ i.program.functions,
      i.functions.clear.withBuiltins.find? f.name = none := by
    intro f hf
    have hname := List.find?_eq_none.mp h f hf
    rw [FunctionTable.find?_clear_withBuiltins, Option.map_eq_none_iff]
    simpa using hname
  obtain ⟨hok, hfind⟩ := FunctionTable.register_ok i.program.distinct hnew
  rw [register_eq]
  refine ⟨hok, ?_⟩
  funext name
  rw [hfind, FunctionTable.find?_clear_withBuiltins, Program.resolve?, Program.function?_eq_find?]
  cases Builtin.ofName? name with
  | some b => rfl
  | none => rfl

/-- The interpreter that a run leaves, with its terminal. -/
def left (i : Interpreter) (t : Terminal) : Interpreter :=
  { i.register.2 with terminal := t }

/-- A run gives the result that the program gives at the terminal. -/
theorem run_eq (i : Interpreter) (fuel : Nat) :
    i.run fuel = (Scope.run ⟨i.program, i.callDepth, fuel⟩ i.terminal).end?.map fun ended =>
      (ended.1, i.left ended.2) := by
  unfold run Scope.run
  dsimp only
  cases hclash : i.program.clash? with
  | some f =>
    have hregister : i.register =
        (.error (.alreadyExists .aFunction f.name f.position), i.register.2) := by
      rw [← register_of_clash hclash]
    rw [hregister]
    rfl
  | none =>
    obtain ⟨hok, hfind⟩ := register_of_no_clash hclash
    have hregister : i.register = (.ok (), i.register.2) := by rw [← hok]
    rw [hregister]
    dsimp only
    rw [hfind, Program.resolve?_main]
    cases i.program.function? "main" with
    | none => rfl
    | some main => rfl

/-- The table that a run finds makes no difference. -/
theorem left_congr {i j : Interpreter} (hprogram : j.program = i.program)
    (hdepth : j.callDepth = i.callDepth) (t : Terminal) : j.left t = i.left t := by
  cases i
  cases j
  cases hprogram
  cases hdepth
  rfl

/-! ### Run after run -/

/-- The interpreter after some runs, each of which gave a value or an
error. -/
def Reused : Interpreter → Interpreter → Prop :=
  Relation.ReflTransGen fun i j => ∃ fuel result, i.run fuel = some (result, j)

/-- A run leaves the program and the call budget as they were. -/
theorem same_of_run {j : Interpreter} {fuel : Nat} {result : Except RuntimeError Value}
    (h : i.run fuel = some (result, j)) : j.program = i.program ∧ j.callDepth = i.callDepth := by
  rw [run_eq, Option.map_eq_some_iff] at h
  obtain ⟨ended, -, hended⟩ := h
  cases hended
  exact ⟨rfl, rfl⟩

/-- So does any number of runs. -/
theorem Reused.same {j : Interpreter} (h : i.Reused j) :
    j.program = i.program ∧ j.callDepth = i.callDepth := by
  induction h with
  | refl => exact ⟨rfl, rfl⟩
  | tail _ hrun ih =>
    obtain ⟨fuel, result, hrun⟩ := hrun
    obtain ⟨hprogram, hdepth⟩ := same_of_run hrun
    exact ⟨hprogram.trans ih.1, hdepth.trans ih.2⟩

end Interpreter

/-- Two runs that read the same lines, the second at a terminal where
something was printed before. -/
def Run.reuse (printed : Array String) (queue : List String) : Run.Likeness where
  place := Eq
  terminal := fun t t' => ∃ out rest, rest <:+ queue ∧ t = ⟨out, .lines rest, none⟩ ∧
    t' = ⟨printed ++ out, .lines rest, none⟩
  lost := fun _ => False
  print := by
    rintro _ _ text ⟨out, rest, hrest, rfl, rfl⟩
    refine ⟨out.push text, rest, hrest, rfl, ?_⟩
    rw [Terminal.print, Array.append_push]
    rfl
  read := by
    rintro _ _ ⟨out, rest, hrest, rfl, rfl⟩
    cases rest with
    | nil => exact ⟨rfl, out, [], hrest, rfl, rfl⟩
    | cons line rest =>
      exact ⟨rfl, out, rest, (List.suffix_cons line rest).trans hrest, rfl, rfl⟩

/-- Runs that agree, and of which no end is lost, both end with the same
result or both do not end. -/
theorem Outcome.Agrees.end? {L : Run.Likeness} (hlost : ∀ e, ¬ L.lost e)
    (hplace : ∀ p p', L.place p p' → p = p') {outcome outcome' : Outcome RuntimeError Value}
    (h : outcome.Agrees L Eq outcome') :
    Option.Rel (fun ended ended' => ended'.1 = ended.1 ∧ L.terminal ended.2 ended'.2)
      outcome.end? outcome'.end? := by
  cases h with
  | ok hv ht => exact .some ⟨by rw [hv], ht⟩
  | error he ht => exact .some ⟨by rw [he.eq hplace], ht⟩
  | lost he => exact absurd he (hlost _)
  | unfinished => exact .none

namespace Interpreter

/-- What is left of two runs that are alike differs in the printed
lines. -/
theorem left_eq_iff (i after : Interpreter) {printed : Array String} {queue : List String}
    {t t' : Terminal} (ht : (Run.reuse printed queue).terminal t t') :
    i.left t' = after ↔
      ∃ out rest, rest <:+ queue ∧ after.terminal = ⟨printed ++ out, .lines rest, none⟩ ∧
        i.left t = { after with terminal := ⟨out, .lines rest, none⟩ } := by
  obtain ⟨out, rest, hrest, rfl, rfl⟩ := ht
  constructor
  · intro h
    subst h
    exact ⟨out, rest, hrest, rfl, rfl⟩
  · intro h
    obtain ⟨out', rest', -, hterminal, hleft⟩ := h
    -- The terminal of what is left fixes the lines that were added.
    have hsame := congrArg Interpreter.terminal hleft
    cases hsame
    cases after
    cases hterminal
    cases hleft
    rfl

/-- Runs of an interpreter are independent but for the terminal. Take an
interpreter after any runs, whatever they gave, and let its terminal hold
some printed lines and a queue of lines to read. The next run ends with a
result exactly if the run of a new interpreter does, at a terminal with
no lines and the same queue. It adds to the printed lines what the new
interpreter prints, and it leaves what the new one leaves of the queue. -/
theorem run_eq_fresh (program : Program) (limits : Limits) (start : Terminal) (i : Interpreter)
    (hreused : (create program limits start).Reused i) (printed : Array String)
    (queue : List String) (hterminal : i.terminal = ⟨printed, .lines queue, none⟩)
    (fuel : Nat) (result : Except RuntimeError Value) (after : Interpreter) :
    i.run fuel = some (result, after) ↔
      ∃ out rest, rest <:+ queue ∧ after.terminal = ⟨printed ++ out, .lines rest, none⟩ ∧
        (create program limits (.scripted queue)).run fuel =
          some (result, { after with terminal := ⟨out, .lines rest, none⟩ }) := by
  obtain ⟨hprogram, hdepth⟩ := hreused.same
  -- One program, run twice: the two runs differ only in where their terminals start.
  have hagrees := (Program.Alike.refl (fun _ => rfl) program).run_agrees
    (L := Run.reuse printed queue) limits fuel (.scripted queue) i.terminal
    ⟨#[], queue, List.suffix_refl queue, rfl, by rw [hterminal, Array.append_empty]⟩
  have hleft : ∀ t, i.left t = (create program limits (.scripted queue)).left t :=
    left_congr hprogram hdepth
  have hrun : i.run fuel = (program.run limits fuel i.terminal).end?.map fun ended =>
      (ended.1, (create program limits (.scripted queue)).left ended.2) := by
    rw [run_eq, hprogram, hdepth]
    simp only [hleft]
    rfl
  have hfresh : (create program limits (.scripted queue)).run fuel =
      (program.run limits fuel (.scripted queue)).end?.map fun ended =>
        (ended.1, (create program limits (.scripted queue)).left ended.2) := run_eq _ fuel
  rw [hrun, hfresh]
  generalize program.run limits fuel i.terminal = outcome' at hagrees ⊢
  generalize program.run limits fuel (.scripted queue) = outcome at hagrees ⊢
  have hends := hagrees.end? (fun _ => id) fun _ _ => id
  generalize outcome.end? = ended at hends ⊢
  generalize outcome'.end? = ended' at hends ⊢
  cases hends with
  | none => simp
  | some h =>
    simp only [Option.map_some, Option.some.injEq, Prod.mk.injEq, h.1, left_eq_iff _ _ h.2]
    constructor
    · intro h
      obtain ⟨hresult, out, rest, hrest, hafter, hleft⟩ := h
      exact ⟨out, rest, hrest, hafter, hresult, hleft⟩
    · intro h
      obtain ⟨out, rest, hrest, hafter, hresult, hleft⟩ := h
      exact ⟨hresult, out, rest, hrest, hafter, hleft⟩

/-- A second run after one that failed, and between the two a line that
the first has printed and two that it has read. -/
theorem run_eq_fresh_after_error :
    let p : Position := .start
    let main : FunctionDecl := ⟨"main", [], .int, [.call "print" [.call "read" [] p] p,
      .returnStmt (some (.call "to_int" [.call "read" [] p] p)) p], p, p⟩
    let program : Program := Program.empty.afterOffers [main]
    ∃ i after, (create program ⟨1, 0⟩ (.scripted ["a", "b", "c", "7"])).Reused i ∧
      i.terminal = ⟨#["a"], .lines ["c", "7"], none⟩ ∧
      i.run 0 = some (.ok (.int 7), after) ∧ after.terminal = ⟨#["a", "c"], .lines [], none⟩ := by
  intro p main program
  have hfirst : (create program ⟨1, 0⟩ (.scripted ["a", "b", "c", "7"])).run 0 =
      some (.error (.castingError .int (.string "b") p),
        (create program ⟨1, 0⟩ (.scripted [])).left ⟨#["a"], .lines ["c", "7"], none⟩) := by
    rfl
  have hfresh : (create program ⟨1, 0⟩ (.scripted ["c", "7"])).run 0 =
      some (.ok (.int 7), (create program ⟨1, 0⟩ (.scripted [])).left ⟨#["c"], .lines [], none⟩) := by
    rfl
  refine ⟨_, (create program ⟨1, 0⟩ (.scripted [])).left ⟨#["a", "c"], .lines [], none⟩,
    .single ⟨0, _, hfirst⟩, rfl, ?_, rfl⟩
  exact (run_eq_fresh program ⟨1, 0⟩ _ _ (.single ⟨0, _, hfirst⟩) #["a"] ["c", "7"] rfl 0 _ _).mpr
    ⟨#["c"], [], List.nil_suffix, rfl, hfresh⟩

end Interpreter

end ScalarScript
