import ScalarScript.Stmt
import ScalarScript.ParseError

/-!
# `ScalarScript.Program`: functions in their order

A program finds its functions by their names and lists them in the order
of their declarations. For this it has two parts: a map from names to
functions, and the names in order. A name is entered in both or in
neither, so the two stay in step.
-/

set_option autoImplicit false

namespace ScalarScript

/-- A parameter of a function. -/
structure Parameter where
  name : String
  type : DeclaredType
  position : Position
  deriving DecidableEq, Repr

/-- A function. -/
structure FunctionDecl where
  name : String
  parameters : List Parameter
  result : DeclaredType
  body : List Stmt
  /-- The place of the brace that opens the body. -/
  bodyPosition : Position
  /-- The place of the name. -/
  position : Position
  deriving Repr

/-- What names stand for: at most one function each. -/
abbrev FunctionMap := String → Option FunctionDecl

namespace FunctionMap

/-- The map without functions. -/
def empty : FunctionMap := fun _ => none

/-- The map in which a name stands for a function. -/
def insert (map : FunctionMap) (name : String) (f : FunctionDecl) : FunctionMap := fun other =>
  if other = name then some f else map other

/-- The map in which a name stands for nothing. -/
def remove (map : FunctionMap) (name : String) : FunctionMap := fun other =>
  if other = name then none else map other

/-- Takes the functions with the given names out of a map, one after the
other. A name whose function has been taken gives nothing. -/
def takeAll (map : FunctionMap) : List String → List FunctionDecl
  | [] => []
  | name :: names =>
    match map name with
    | some f => f :: (map.remove name).takeAll names
    | none => map.takeAll names

end FunctionMap

/-- Functions by their names, and the names in order. -/
structure Program where
  map : FunctionMap
  order : List String
  /-- A function stands under its own name. -/
  name_of_map : ∀ {name : String} {f : FunctionDecl}, map name = some f → f.name = name
  order_nodup : order.Nodup
  /-- The names in order are those that stand for a function. -/
  mem_order_iff : ∀ name : String, name ∈ order ↔ (map name).isSome

namespace Program

/-- The program without functions. -/
def empty : Program where
  map := .empty
  order := []
  name_of_map := by
    intro name f h
    cases h
  order_nodup := List.nodup_nil
  mem_order_iff := by simp [FunctionMap.empty]

/-- The program with a function of a new name behind all others. -/
def append (p : Program) (f : FunctionDecl) (hnew : ¬ (p.map f.name).isSome) : Program where
  map := p.map.insert f.name f
  order := p.order ++ [f.name]
  name_of_map := by
    intro name g h
    unfold FunctionMap.insert at h
    split at h
    · rename_i hname
      rw [hname, Option.some.inj h]
    · exact p.name_of_map h
  order_nodup := by
    rw [List.nodup_append]
    refine ⟨p.order_nodup, by simp, ?_⟩
    intro a ha b hb hab
    rw [List.mem_singleton] at hb
    exact hnew ((p.mem_order_iff f.name).mp (hb ▸ hab ▸ ha))
  mem_order_iff := by
    intro name
    rw [List.mem_append, List.mem_singleton, p.mem_order_iff, FunctionMap.insert]
    by_cases hname : name = f.name <;> simp [hname]

/-- The program with a function added behind all others. A name that is
taken is refused. -/
def add (p : Program) (f : FunctionDecl) : Except ParseError Program :=
  if h : (p.map f.name).isSome then .error (.duplicateFunction f.name f.position)
  else .ok (p.append f h)

/-- The function with a name. -/
def function? (p : Program) (name : String) : Option FunctionDecl :=
  p.map name

/-- The functions in order. -/
def functions (p : Program) : List FunctionDecl :=
  p.order.filterMap p.map

/-- The functions in order, taken out of the program. -/
def intoFunctions (p : Program) : List FunctionDecl :=
  p.map.takeAll p.order

/-- The number of functions. -/
def size (p : Program) : Nat := p.order.length

/-- Whether there is no function. -/
def isEmpty (p : Program) : Bool := p.order.isEmpty

/-- Whether a function has the name. -/
def Defines (p : Program) (name : String) : Prop :=
  name ∈ p.functions.map FunctionDecl.name

instance (p : Program) (name : String) : Decidable (p.Defines name) :=
  inferInstanceAs (Decidable (name ∈ p.functions.map FunctionDecl.name))

end Program

end ScalarScript
