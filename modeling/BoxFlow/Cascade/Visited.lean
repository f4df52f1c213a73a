/-!
# Visited links

The one thing selectors can see besides the tree: which link targets were
visited.
-/

namespace BoxFlow

/-- The visited link targets. -/
structure Visited where
  targets : List String := []
deriving DecidableEq, Repr

namespace Visited

/-- Adds a target. -/
def mark (v : Visited) (target : String) : Visited :=
  ⟨target :: v.targets⟩

/-- Whether the target was visited. -/
def contains (v : Visited) (target : String) : Bool :=
  v.targets.contains target

end Visited

end BoxFlow
