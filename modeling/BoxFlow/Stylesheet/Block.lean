/-!
# Declaration blocks

A block holds declarations in the order in which their properties were first
declared. Declaring a property again replaces its value and keeps its place.
-/

namespace BoxFlow

/-- A property name with its value. -/
structure Declaration where
  name : String
  value : String
deriving DecidableEq, Repr

/-- Declarations with distinct names, in first-declared order. -/
structure Block where
  declarations : List Declaration := []
  distinct : (declarations.map Declaration.name).Nodup := by simp
deriving DecidableEq, Repr

namespace Block

/-- The block that declares nothing. -/
def empty : Block := {}

/-- Value of a property, if it is declared. -/
def get? (b : Block) (name : String) : Option String :=
  (b.declarations.find? fun d => d.name == name).map Declaration.value

/-- Replaces the value of the first declaration of that name, or adds one. -/
def setIn (name value : String) : List Declaration → List Declaration
  | [] => [⟨name, value⟩]
  | d :: ds => if d.name = name then ⟨name, value⟩ :: ds else d :: setIn name value ds

/-- Declaring a property declares that name and no other new one. -/
theorem mem_names_setIn {name value n : String} {ds : List Declaration} :
    n ∈ (setIn name value ds).map Declaration.name ↔
      n = name ∨ n ∈ ds.map Declaration.name := by
  induction ds with
  | nil => simp [setIn]
  | cons d ds ih =>
    by_cases h : d.name = name
    · simp [setIn, h]
    · simp only [setIn, h, if_false, List.map_cons, List.mem_cons, ih]
      exact or_left_comm

/-- Names stay distinct when a property is declared. -/
theorem nodup_names_setIn (name value : String) {ds : List Declaration}
    (h : (ds.map Declaration.name).Nodup) :
    ((setIn name value ds).map Declaration.name).Nodup := by
  induction ds with
  | nil => simp [setIn]
  | cons d ds ih =>
    obtain ⟨hd, hds⟩ := List.nodup_cons.1 h
    by_cases hn : d.name = name
    · subst hn
      simpa [setIn] using h
    · simp only [setIn, hn, if_false, List.map_cons, List.nodup_cons]
      refine ⟨fun hmem => ?_, ih hds⟩
      rcases mem_names_setIn.1 hmem with heq | hmem
      · exact hn heq
      · exact hd hmem

/-- Declares a property. -/
def set (b : Block) (name value : String) : Block :=
  ⟨setIn name value b.declarations, nodup_names_setIn name value b.distinct⟩

/-- Declares everything that another block declares, in its order. -/
def extend (b other : Block) : Block :=
  other.declarations.foldl (fun b d => b.set d.name d.value) b

/-- The block that declares the pairs in turn. -/
def ofPairs (pairs : List (String × String)) : Block :=
  pairs.foldl (fun b pair => b.set pair.1 pair.2) empty

/-- Number of declared properties. -/
def size (b : Block) : Nat := b.declarations.length

/-- Whether nothing is declared. -/
def isEmpty (b : Block) : Bool := b.declarations.isEmpty

end Block

end BoxFlow
