import BoxFlow.Dom.Element

/-!
# Trees of nodes

Nodes live in one array and refer to each other by index; index 0 is the
document. A node is attached at most once, as the last child of its parent, and
carries links to its siblings. Walks are bounded by the number of nodes, so that
they end whatever was attached to what.
-/

namespace BoxFlow

/-- Index of a node in its tree. -/
abbrev NodeId := Nat

/-- What a node is. -/
inductive NodeKind where
  | document
  | element (e : Element)
  | text (content : String)
  | comment (content : String)
deriving DecidableEq, Repr

/-- A node with its links. -/
structure Node where
  kind : NodeKind
  parent : Option NodeId := none
  children : List NodeId := []
  next : Option NodeId := none
  previous : Option NodeId := none
deriving DecidableEq, Repr

/-- The nodes of a tree in the order of their creation. -/
structure Tree where
  nodes : Array Node
deriving DecidableEq, Repr

namespace Tree

/-- Index of the document. -/
def root : NodeId := 0

/-- The tree that is only a document. -/
def empty : Tree := ⟨#[{ kind := .document }]⟩

/-- Number of nodes, the document included. -/
def size (t : Tree) : Nat := t.nodes.size

/-- The node of an index, if it is known. -/
def get? (t : Tree) (id : NodeId) : Option Node := t.nodes[id]?

/-! ## Building -/

/-- A tree with one more node, attached to nothing, and its index. -/
def alloc (t : Tree) (kind : NodeKind) : Tree × NodeId :=
  (⟨t.nodes.push { kind := kind }⟩, t.size)

/-- Changes one node. -/
def modify (t : Tree) (id : NodeId) (change : Node → Node) : Tree :=
  ⟨t.nodes.modify id change⟩

/-- Parent of a node. -/
def parent? (t : Tree) (id : NodeId) : Option NodeId :=
  (t.get? id).bind Node.parent

/-- Children of a node in order; none for an unknown one. -/
def children (t : Tree) (id : NodeId) : List NodeId :=
  ((t.get? id).map Node.children).getD []

/-- Whether `append` accepts the pair: two known, different nodes, the child not
yet attached. -/
def canAppend (t : Tree) (parent child : NodeId) : Bool :=
  parent != child && parent < t.size && child < t.size && (t.parent? child).isNone

/-- Attaches `child` as the last child of `parent`. Pairs that `canAppend`
refuses leave the tree as it is. -/
def append (t : Tree) (parent child : NodeId) : Tree :=
  if t.canAppend parent child then
    let last := (t.children parent).getLast?
    let t := t.modify parent fun n => { n with children := n.children ++ [child] }
    let t := t.modify child fun n => { n with parent := some parent, previous := last }
    match last with
    | none => t
    | some l => t.modify l fun n => { n with next := some child }
  else t

/-- A new node attached to `parent`, and its index. Under an unknown parent it
stays detached. -/
def appendNew (t : Tree) (parent : NodeId) (kind : NodeKind) : Tree × NodeId :=
  let (t, id) := t.alloc kind
  (t.append parent id, id)

/-! ## Looking up -/

/-- The element at an index. -/
def element? (t : Tree) (id : NodeId) : Option Element :=
  match (t.get? id).map Node.kind with
  | some (.element e) => some e
  | _ => none

/-- The text of a text node. -/
def text? (t : Tree) (id : NodeId) : Option String :=
  match (t.get? id).map Node.kind with
  | some (.text content) => some content
  | _ => none

/-- Whether the node is a comment. -/
def isComment (t : Tree) (id : NodeId) : Bool :=
  match (t.get? id).map Node.kind with
  | some (.comment _) => true
  | _ => false

/-- Tag of an element node. -/
def tag? (t : Tree) (id : NodeId) : Option String :=
  (t.element? id).map Element.tag

/-- Whether the node is an element with that tag, given in lower case. -/
def isTag (t : Tree) (id : NodeId) (tag : String) : Bool :=
  t.tag? id == some tag

/-- First child of a node. -/
def firstChild? (t : Tree) (id : NodeId) : Option NodeId :=
  (t.children id).head?

/-- The sibling after a node. -/
def next? (t : Tree) (id : NodeId) : Option NodeId :=
  (t.get? id).bind Node.next

/-- The sibling before a node. -/
def previous? (t : Tree) (id : NodeId) : Option NodeId :=
  (t.get? id).bind Node.previous

/-- The children that are elements. -/
def elementChildren (t : Tree) (id : NodeId) : List NodeId :=
  (t.children id).filter fun child => (t.element? child).isSome

/-! ## Walking -/

/-- At most `limit` ancestors, nearest first. -/
def ancestorsWithin (t : Tree) : Nat → NodeId → List NodeId
  | 0, _ => []
  | limit + 1, id =>
    match t.parent? id with
    | none => []
    | some p => p :: t.ancestorsWithin limit p

/-- The ancestors of a node, nearest first. -/
def ancestors (t : Tree) (id : NodeId) : List NodeId :=
  t.ancestorsWithin t.size id

/-- Number of ancestors; the document has depth 0. -/
def depth (t : Tree) (id : NodeId) : Nat :=
  (t.ancestors id).length

/-- A node and what lies up to `limit - 1` levels below it, in document order. -/
def subtreeWithin (t : Tree) : Nat → NodeId → List NodeId
  | 0, _ => []
  | limit + 1, id => id :: (t.children id).flatMap (t.subtreeWithin limit)

/-- A node and everything below it, in document order. -/
def subtree (t : Tree) (id : NodeId) : List NodeId :=
  t.subtreeWithin t.size id

/-- The texts at and below a node, joined in document order. -/
def textContent (t : Tree) (id : NodeId) : String :=
  .ofList ((t.subtree id).flatMap fun n => ((t.text? n).getD "").toList)

/-- Whether some text below the node is not empty. -/
def hasTextBelow (t : Tree) (id : NodeId) : Bool :=
  ((t.children id).flatMap t.subtree).any fun n => (t.text? n).any (· != "")

/-- Looks for a tag level by level, each level in document order. -/
def findTagWithin (t : Tree) (tag : String) : Nat → List NodeId → Option NodeId
  | 0, _ => none
  | limit + 1, level =>
    match level.find? fun id => (t.tag? id).any (Text.sameIgnoringCase · tag) with
    | some id => some id
    | none =>
      match level.flatMap t.children with
      | [] => none
      | below => t.findTagWithin tag limit below

/-- The first element of that tag at or below a node, the nearest level first. -/
def findTag? (t : Tree) (start : NodeId) (tag : String) : Option NodeId :=
  t.findTagWithin tag t.size [start]

/-- The body of the page. -/
def body? (t : Tree) : Option NodeId := t.findTag? root "body"

/-- The head of the page. -/
def head? (t : Tree) : Option NodeId := t.findTag? root "head"

/-- The first element directly below the document. -/
def documentElement? (t : Tree) : Option NodeId :=
  (t.elementChildren root).head?

end Tree

end BoxFlow
