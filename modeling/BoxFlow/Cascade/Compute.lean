import BoxFlow.Cascade.Inherit
import BoxFlow.Cascade.Specificity
import BoxFlow.Number.Overflow
import BoxFlow.Stylesheet.Parse

/-!
# Computed styles

An element takes the declarations of every rule that matches it, in the order of
rank, so that the highest rank has the last word; then what it inherits; then
its style attribute. Ranks compare scores first; between equal scores a
universal rule yields to others, and the later rule in the sheet wins.

`StyleInput.styles` computes the style of every element and text below the document
down to `maxDepth` levels. If the score of a rule cannot be counted in 32 bits,
styling fails (`StyleInput.overflow?`).
-/

namespace BoxFlow

/-- Number of levels below the document that are styled and laid out. -/
def maxDepth : Nat := 256

/-- A rule with its score against an element. -/
structure RankedRule where
  score : Int
  rule : Rule

namespace RankedRule

/-- Whether a rule may be applied before another: a lower score, or an equal one
and not a specific rule before a universal one. -/
def le (x y : RankedRule) : Bool :=
  x.score < y.score ||
    (x.score == y.score && (x.rule.selector.universal || !y.rule.selector.universal))

end RankedRule

namespace Stylesheet

/-- The rules that match, in sheet order. -/
def matching (sheet : Stylesheet) (s : Subject) : List RankedRule :=
  (sheet.rules.map fun rule => ⟨rule.selector.specificity s, rule⟩).filter fun r => 0 < r.score

/-- The rules that match, in order of rank. Equal ranks keep sheet order. -/
def ranked (sheet : Stylesheet) (s : Subject) : List RankedRule :=
  (sheet.matching s).mergeSort RankedRule.le

/-- What the sheet declares for a node: the blocks of the matching rules applied
in order of rank. -/
def cascaded (sheet : Stylesheet) (s : Subject) : Style :=
  (sheet.ranked s).foldl (fun style r => style.apply r.rule.declarations) .empty

/-- The style of one node, given that of its parent. -/
def computed (sheet : Stylesheet) (s : Subject) (parent : Style) : Style :=
  match s.tree.element? s.id with
  | none => .inheritedOnly parent
  | some e =>
    let style := (sheet.cascaded s).inherit parent
    match e.attribute? "style" with
    | none => style
    | some text =>
      let inline := Block.ofInline text
      (style.apply inline).resolveInline inline parent

/-- What computing the style of one node reports. -/
def computedWarnings (sheet : Stylesheet) (s : Subject) : List Warning :=
  match s.tree.element? s.id with
  | none => []
  | some e =>
    sheet.rules.flatMap (fun rule => rule.selector.warnings s) ++
      ((e.attribute? "style").map Block.inlineWarnings).getD []

/-- The operation that fails when the rules are scored against a node. -/
def overflow? (sheet : Stylesheet) (s : Subject) : Option Overflow :=
  match s.tree.element? s.id with
  | none => none
  | some _ =>
    if sheet.rules.all fun rule => (rule.selector.specificity32? s).isSome then none
    else some .addition

end Stylesheet

/-- Everything that the styles of a tree depend on. -/
structure StyleInput where
  tree : Tree
  sheet : Stylesheet
  visited : Visited := {}

namespace StyleInput

/-- A node of the tree as the subject of selectors. -/
def subject (input : StyleInput) (id : NodeId) : Subject :=
  ⟨input.tree, id, input.visited⟩

/-- The styles of a node and of what lies up to `levels - 1` levels below it. -/
def stylesWithin (input : StyleInput) : Nat → Style → NodeId → List (NodeId × Style)
  | 0, _, _ => []
  | levels + 1, parent, id =>
    match (input.tree.get? id).map Node.kind with
    | some (.element _) =>
      let style := input.sheet.computed (input.subject id) parent
      (id, style) :: (input.tree.children id).flatMap (input.stylesWithin levels style)
    | some (.text _) => [(id, .inheritedOnly parent)]
    | _ => []

/-- The styles of all nodes that have one. -/
def styleList (input : StyleInput) : List (NodeId × Style) :=
  (input.tree.children Tree.root).flatMap (input.stylesWithin maxDepth .empty)

/-- What styling a node and the levels below it reports. -/
def warningsWithin (input : StyleInput) : Nat → NodeId → List Warning
  | 0, _ =>
    [.cascade ("tree deeper than " ++ toString maxDepth ++
      " levels; deeper nodes are not styled")]
  | levels + 1, id =>
    match (input.tree.get? id).map Node.kind with
    | some (.element _) =>
      input.sheet.computedWarnings (input.subject id) ++
        (input.tree.children id).flatMap (input.warningsWithin levels)
    | _ => []

/-- What styling the tree reports. -/
def warnings (input : StyleInput) : List Warning :=
  (input.tree.children Tree.root).flatMap (input.warningsWithin maxDepth)

/-- The first operation that fails when a node and the levels below it are styled. -/
def overflowWithin? (input : StyleInput) : Nat → NodeId → Option Overflow
  | 0, _ => none
  | levels + 1, id =>
    match (input.tree.get? id).map Node.kind with
    | some (.element _) =>
      (input.sheet.overflow? (input.subject id)).or
        ((input.tree.children id).findSome? (input.overflowWithin? levels))
    | _ => none

/-- The first operation that fails when the tree is styled. -/
def overflow? (input : StyleInput) : Option Overflow :=
  (input.tree.children Tree.root).findSome? (input.overflowWithin? maxDepth)

end StyleInput

/-- The styles of a tree, by node. -/
structure StyleMap where
  table : Array (Option Style) := #[]
deriving DecidableEq

namespace StyleMap

/-- No node has a style. -/
def empty : StyleMap := {}

/-- The map of a list of styles for a tree of `size` nodes. -/
def ofList (size : Nat) (styles : List (NodeId × Style)) : StyleMap where
  table := styles.foldl (fun table entry => table.setIfInBounds entry.1 (some entry.2))
    (Array.replicate size none)

/-- The style of a node, if it has one. -/
def get? (m : StyleMap) (id : NodeId) : Option Style :=
  m.table[id]?.join

/-- The style of a node; one without a style says nothing. -/
def styleOf (m : StyleMap) (id : NodeId) : Style :=
  (m.get? id).getD .empty

/-- Number of nodes that have a style. -/
def size (m : StyleMap) : Nat :=
  (m.table.toList.filter Option.isSome).length

end StyleMap

/-- The computed style of every node that has one. -/
def StyleInput.styles (input : StyleInput) : StyleMap :=
  .ofList input.tree.size input.styleList

end BoxFlow
