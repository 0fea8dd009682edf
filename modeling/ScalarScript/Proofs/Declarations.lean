import Mathlib.Data.List.Basic
import Mathlib.Data.List.Induction
import ScalarScript.Program

/-!
# `ScalarScript.Proofs.Declarations`: the functions that a program holds

A program keeps its functions in a map and their names in a list. The
fields of `Program` say that the two are in step. From this follows what
the list of functions is: it has the names in order
(`map_name_functions`), it determines the program
(`eq_of_functions_eq`), and taking the functions out of the map one by
one gives the same list (`intoFunctions_eq`).

`Program.offer` is one attempt to add a function: its answer and the
program that it leaves. `offers_in_step` is about every history of such
attempts, from the program without functions, in which names may come
again. Its parts are proved for a history that starts at any program, by
induction on the attempts.
-/

set_option autoImplicit false

namespace ScalarScript

namespace FunctionMap

variable {map : FunctionMap} {names : List String}

/-- Functions that are taken out under different names are not missed
later. -/
theorem takeAll_eq_filterMap (hnames : names.Nodup) :
    map.takeAll names = names.filterMap map := by
  induction names generalizing map with
  | nil => rfl
  | cons name names ih =>
    rw [List.nodup_cons] at hnames
    have hrest : names.filterMap (map.remove name) = names.filterMap map := by
      refine List.filterMap_congr ?_
      intro other hother
      have hne : other ≠ name := by
        intro heq
        exact hnames.1 (heq ▸ hother)
      exact if_neg hne
    cases hmap : map name with
    | none =>
      rw [List.filterMap_cons_none hmap, ← ih hnames.2]
      simp only [takeAll, hmap]
    | some f =>
      rw [List.filterMap_cons_some hmap, ← hrest, ← ih hnames.2]
      simp only [takeAll, hmap]

/-- If each name leads to a function with this name, the functions of some
names have just these names. -/
theorem map_name_filterMap (hname : ∀ {name : String} {f : FunctionDecl},
    map name = some f → f.name = name) (hsome : ∀ name ∈ names, (map name).isSome) :
    (names.filterMap map).map FunctionDecl.name = names := by
  induction names with
  | nil => rfl
  | cons name names ih =>
    obtain ⟨f, hf⟩ := Option.isSome_iff_exists.mp (hsome name List.mem_cons_self)
    have hrest := ih fun other hother => hsome other (List.mem_cons_of_mem name hother)
    rw [List.filterMap_cons_some hf, List.map_cons, hname hf, hrest]

end FunctionMap

namespace Program

/-! ### The list of functions -/

@[simp] theorem functions_empty : Program.empty.functions = [] := rfl

section

variable (p : Program)

/-- The names of the functions are the names in order. -/
theorem map_name_functions : p.functions.map FunctionDecl.name = p.order :=
  FunctionMap.map_name_filterMap p.name_of_map fun name => (p.mem_order_iff name).mp

/-- The functions have pairwise different names. -/
theorem distinct : (p.functions.map FunctionDecl.name).Nodup := by
  rw [map_name_functions]
  exact p.order_nodup

/-- Taking the functions out of a program gives its list of functions. -/
theorem intoFunctions_eq : p.intoFunctions = p.functions :=
  FunctionMap.takeAll_eq_filterMap p.order_nodup

/-- There are as many functions as the program counts. -/
theorem length_functions : p.functions.length = p.size := by
  rw [size, ← map_name_functions, List.length_map]

/-- A program defines the names that its map knows. -/
theorem defines_iff (name : String) : p.Defines name ↔ (p.map name).isSome := by
  rw [Defines, map_name_functions, p.mem_order_iff]

/-- The function with a name is the one that has it. -/
theorem function?_eq_some_iff (name : String) (f : FunctionDecl) :
    p.function? name = some f ↔ f ∈ p.functions ∧ f.name = name := by
  rw [function?, functions, List.mem_filterMap]
  constructor
  · intro h
    exact ⟨⟨name, (p.mem_order_iff name).mpr (by rw [h]; rfl), h⟩, p.name_of_map h⟩
  · rintro ⟨⟨other, -, hother⟩, hname⟩
    rwa [← hname, p.name_of_map hother]

/-- A function is found in the map exactly as in the list. -/
theorem function?_eq_find? (name : String) :
    p.function? name = p.functions.find? fun f => f.name == name := by
  cases hfind : p.functions.find? fun f => f.name == name with
  | some f =>
    rw [function?_eq_some_iff]
    exact ⟨List.mem_of_find?_eq_some hfind, by simpa using List.find?_some hfind⟩
  | none =>
    rw [Option.eq_none_iff_forall_ne_some]
    intro f hf
    obtain ⟨hmem, hname⟩ := (p.function?_eq_some_iff name f).mp hf
    simpa [hname] using List.find?_eq_none.mp hfind f hmem

end

/-- The functions determine the program. -/
theorem eq_of_functions_eq {p q : Program} (h : p.functions = q.functions) : p = q := by
  have horder : p.order = q.order := by
    rw [← map_name_functions, ← map_name_functions, h]
  have hmap : p.map = q.map := by
    funext name
    have hfind := p.function?_eq_find? name
    rwa [h, ← q.function?_eq_find? name] at hfind
  cases p
  cases q
  cases horder
  cases hmap
  rfl

/-! ### Adding a function -/

/-- A function that is appended stands at the end of the list. -/
theorem functions_append (p : Program) (f : FunctionDecl) (hnew : ¬ (p.map f.name).isSome) :
    (p.append f hnew).functions = p.functions ++ [f] := by
  have hself : p.map.insert f.name f f.name = some f := if_pos rfl
  have hrest : p.order.filterMap (p.map.insert f.name f) = p.order.filterMap p.map := by
    refine List.filterMap_congr ?_
    intro name hname
    have hne : name ≠ f.name := by
      intro heq
      exact hnew ((p.mem_order_iff f.name).mp (heq ▸ hname))
    exact if_neg hne
  simp only [functions, append, List.filterMap_append, hrest, List.filterMap_cons_some hself,
    List.filterMap_nil]

/-- A second function of a name is refused, at its place. -/
theorem add_of_defines {p : Program} {f : FunctionDecl} (h : p.Defines f.name) :
    p.add f = .error (.duplicateFunction f.name f.position) :=
  dif_pos ((p.defines_iff f.name).mp h)

/-- A function with a new name is added at the end. -/
theorem add_of_not_defines {p : Program} {f : FunctionDecl} (h : ¬ p.Defines f.name) :
    ∃ q, p.add f = .ok q ∧ q.functions = p.functions ++ [f] := by
  rw [defines_iff] at h
  exact ⟨p.append f h, dif_neg h, functions_append p f h⟩

/-- Adding succeeds exactly if it puts the function at the end of the
list. -/
theorem add_eq_ok_iff (p q : Program) (f : FunctionDecl) :
    p.add f = .ok q ↔ q.functions = p.functions ++ [f] := by
  by_cases hdefines : p.Defines f.name
  · rw [add_of_defines hdefines]
    constructor
    · intro h
      cases h
    · intro h
      -- The name of `f` would stand in `q` twice.
      have hdistinct := q.distinct
      rw [h, List.map_append, List.nodup_append] at hdistinct
      exact absurd rfl (hdistinct.2.2 f.name hdefines f.name (by simp))
  · obtain ⟨q', hq', hfunctions⟩ := add_of_not_defines hdefines
    rw [hq', Except.ok.injEq]
    constructor
    · rintro rfl
      exact hfunctions
    · intro h
      exact eq_of_functions_eq (hfunctions.trans h.symm)

/-- Functions with pairwise different names make a program. -/
theorem exists_functions_eq {fs : List FunctionDecl}
    (h : (fs.map FunctionDecl.name).Nodup) : ∃ p : Program, p.functions = fs := by
  induction fs using List.reverseRecOn with
  | nil => exact ⟨.empty, rfl⟩
  | append_singleton fs f ih =>
    rw [List.map_append, List.nodup_append] at h
    obtain ⟨p, rfl⟩ := ih h.1
    have hnew : ¬ p.Defines f.name := by
      intro hdefines
      exact h.2.2 f.name hdefines f.name (by simp) rfl
    obtain ⟨q, -, hfunctions⟩ := add_of_not_defines hnew
    exact ⟨q, hfunctions⟩

/-! ### Histories -/

/-- An attempt to add a function: its answer, and the program that it
leaves. -/
def offer (p : Program) (f : FunctionDecl) : Except ParseError Unit × Program :=
  match p.add f with
  | .ok q => (.ok (), q)
  | .error e => (.error e, p)

/-- The program after functions have been offered to it in turn. -/
def afterOffers (p : Program) (fs : List FunctionDecl) : Program :=
  fs.foldl (fun q f => (q.offer f).2) p

/-- Those of the functions that are offered in turn which are not refused. -/
def accepted (p : Program) : List FunctionDecl → List FunctionDecl
  | [] => []
  | f :: fs =>
    match p.offer f with
    | (.ok _, q) => f :: q.accepted fs
    | (.error _, q) => q.accepted fs

/-- An attempt adds a function, or it leaves the program as it is. -/
theorem offer_cases (p : Program) (f : FunctionDecl) :
    (p.Defines f.name ∧ p.offer f = (.error (.duplicateFunction f.name f.position), p)) ∨
    (¬ p.Defines f.name ∧ ∃ q, p.offer f = (.ok (), q) ∧ q.functions = p.functions ++ [f]) := by
  by_cases h : p.Defines f.name
  · exact .inl ⟨h, by rw [offer, add_of_defines h]⟩
  · obtain ⟨q, hadd, hfunctions⟩ := add_of_not_defines h
    exact .inr ⟨h, q, by rw [offer, hadd], hfunctions⟩

/-- After any number of offers the list has the functions that were
accepted, in order. -/
theorem functions_afterOffers (p : Program) (fs : List FunctionDecl) :
    (p.afterOffers fs).functions = p.functions ++ p.accepted fs := by
  induction fs generalizing p with
  | nil => simp [afterOffers, accepted]
  | cons f fs ih =>
    rw [afterOffers, List.foldl_cons, ← afterOffers, ih]
    rcases p.offer_cases f with ⟨-, hoffer⟩ | ⟨-, q, hoffer, hfunctions⟩
    · simp only [accepted, hoffer]
    · simp only [accepted, hoffer, hfunctions, List.append_assoc, List.singleton_append]

/-- A name stands for what it stood for before, or else for the function
that is offered under it. -/
theorem function?_offer (p : Program) (f : FunctionDecl) (name : String) :
    (p.offer f).2.function? name =
      (p.function? name).or ([f].find? fun g => g.name == name) := by
  rcases p.offer_cases f with ⟨hdefines, hoffer⟩ | ⟨-, q, hoffer, hfunctions⟩
  · rw [hoffer]
    by_cases hname : f.name = name
    · -- A refused function finds its name taken, and the name stays with the one that has it.
      obtain ⟨g, hg⟩ := Option.isSome_iff_exists.mp ((p.defines_iff f.name).mp hdefines)
      have hfunction : p.function? name = some g := hname ▸ hg
      rw [hfunction, Option.some_or]
    · simp [hname]
  · rw [hoffer, function?_eq_find?, hfunctions, List.find?_append, ← function?_eq_find?]

/-- After any number of offers a name stands for what it stood for before,
or else for the first offer with this name. -/
theorem function?_afterOffers (p : Program) (fs : List FunctionDecl) (name : String) :
    (p.afterOffers fs).function? name =
      (p.function? name).or (fs.find? fun f => f.name == name) := by
  induction fs generalizing p with
  | nil => simp [afterOffers]
  | cons f fs ih =>
    rw [afterOffers, List.foldl_cons, ← afterOffers, ih, function?_offer, Option.or_assoc,
      ← List.find?_append, List.singleton_append]

/-- A name is taken once a function has been offered under it. -/
theorem defines_afterOffers_empty (fs : List FunctionDecl) (name : String) :
    (Program.empty.afterOffers fs).Defines name ↔ name ∈ fs.map FunctionDecl.name := by
  have hmap : (Program.empty.afterOffers fs).map name = fs.find? fun f => f.name == name :=
    function?_afterOffers .empty fs name
  rw [defines_iff, hmap, List.find?_isSome]
  simp

/-- For every sequence of attempts to add a function, from the program
without functions: both ways to list the functions give those that were
accepted, each once and in the order in which they were; a name stands for
the first function that was offered under it; the size counts the accepted
ones. A further attempt is refused exactly when its name was offered
before, and then it leaves the program as it is. -/
theorem offers_in_step (offered : List FunctionDecl) :
    let p := Program.empty.afterOffers offered
    p.functions = Program.empty.accepted offered ∧
    p.intoFunctions = Program.empty.accepted offered ∧
    ((Program.empty.accepted offered).map FunctionDecl.name).Nodup ∧
    (∀ name, p.function? name = offered.find? fun f => f.name == name) ∧
    p.size = (Program.empty.accepted offered).length ∧
    (p.isEmpty = true ↔ p.size = 0) ∧
    ∀ f, p.offer f =
      if f.name ∈ offered.map FunctionDecl.name then
        (.error (.duplicateFunction f.name f.position), p)
      else (.ok (), Program.empty.afterOffers (offered ++ [f])) := by
  intro p
  have hfunctions : p.functions = Program.empty.accepted offered :=
    functions_afterOffers .empty offered
  refine ⟨hfunctions, ?_, ?_, function?_afterOffers .empty offered, ?_, ?_, ?_⟩
  · rw [intoFunctions_eq, hfunctions]
  · rw [← hfunctions]
    exact p.distinct
  · rw [← hfunctions, length_functions]
  · rw [isEmpty, size, List.isEmpty_iff, List.length_eq_zero_iff]
  · intro f
    have hdefines := defines_afterOffers_empty offered f.name
    have hafter : Program.empty.afterOffers (offered ++ [f]) = (p.offer f).2 := by
      rw [afterOffers, List.foldl_append]
      rfl
    rcases p.offer_cases f with ⟨htaken, hoffer⟩ | ⟨hnew, q, hoffer, -⟩
    · rw [if_pos (hdefines.mp htaken), hoffer]
    · rw [if_neg (mt hdefines.mpr hnew), hafter, hoffer]

end Program

end ScalarScript
