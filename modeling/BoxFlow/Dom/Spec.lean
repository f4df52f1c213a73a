import BoxFlow.Dom.Tree

/-!
# Tree descriptions

A description is the nested form of a tree: texts, comments, and elements with
attribute pairs and children. `plant` adds it to a tree, a parent before its
children and siblings in order.
-/

namespace BoxFlow

/-- A node with everything below it. -/
inductive Spec where
  | text (content : String)
  | comment (content : String)
  | element (tag : String) (attributes : List (String × String)) (children : List Spec)
deriving Repr

namespace Spec

mutual

/-- The tree with the description as a new last child of `parent`. -/
def plant (t : Tree) (parent : NodeId) : Spec → Tree
  | .text content => (t.appendNew parent (.text content)).1
  | .comment content => (t.appendNew parent (.comment content)).1
  | .element tag attributes children =>
    let (t, id) := t.appendNew parent (.element (.ofWritten tag attributes))
    plantAll t id children

/-- The tree with descriptions added in order as new last children of `parent`. -/
def plantAll (t : Tree) (parent : NodeId) : List Spec → Tree
  | [] => t
  | spec :: specs => plantAll (plant t parent spec) parent specs

end

/-- The tree whose document has the description as its only child. -/
def toTree (spec : Spec) : Tree :=
  plant .empty Tree.root spec

end Spec

end BoxFlow
