import BoxFlow.Stylesheet.Block

/-!
# Styles

A style gives values to properties, one each, in the order of their names. Every
node has its own; what is inherited has been copied into it.
-/

namespace BoxFlow

/-- Values of properties, in ascending order of the names. -/
structure Style where
  properties : List (String × String) := []
deriving DecidableEq, Repr

namespace Style

/-- The style that says nothing. -/
def empty : Style := {}

/-- Value of a property, if it has one. -/
def get? (s : Style) (name : String) : Option String :=
  (s.properties.find? fun p => p.1 == name).map Prod.snd

/-- Value of a property, or the empty string. -/
def value (s : Style) (name : String) : String :=
  (s.get? name).getD ""

/-- Puts a property in its place among ordered ones, replacing its old value. -/
def setIn (name value : String) : List (String × String) → List (String × String)
  | [] => [(name, value)]
  | p :: ps =>
    if p.1 = name then (name, value) :: ps
    else if name < p.1 then (name, value) :: p :: ps
    else p :: setIn name value ps

/-- Gives a property a value. -/
def set (s : Style) (name value : String) : Style :=
  ⟨setIn name value s.properties⟩

/-- Gives every property of a block the value it has there. -/
def apply (s : Style) (b : Block) : Style :=
  b.declarations.foldl (fun s d => s.set d.name d.value) s

/-- The style that has the pairs set in turn. -/
def ofPairs (pairs : List (String × String)) : Style :=
  pairs.foldl (fun s p => s.set p.1 p.2) empty

/-- Number of properties that have a value. -/
def size (s : Style) : Nat := s.properties.length

/-- Whether no property has a value. -/
def isEmpty (s : Style) : Bool := s.properties.isEmpty

end Style

end BoxFlow
