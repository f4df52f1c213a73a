import BoxFlow.Proofs.Dom.Subtree

/-!
# Descriptions and the trees they give

The tree of a description can be read back: every node stands at its number in pre-order, counted
from 1 behind the document, and what is read from the first node on is the description, but for the
case of tags and attribute names (`Spec.toTree_reads_back`).

A tree holds a description from an index on (`Tree.HoldsFrom`) if the nodes of the description
follow each other from there, each with the children that the description gives it. Planting a
description at the end of a tree establishes this, and planting another one behind it does not
disturb it, because only the node that is planted under gets new children.
-/

set_option autoImplicit false

namespace BoxFlow

namespace Spec

mutual

/-- The nodes of a description in pre-order. -/
def nodeKinds : Spec → List NodeKind
  | .text content => [.text content]
  | .comment content => [.comment content]
  | .element tag attributes children =>
    .element (.ofWritten tag attributes) :: nodeKindsAll children

/-- The nodes of descriptions one after the other. -/
def nodeKindsAll : List Spec → List NodeKind
  | [] => []
  | spec :: specs => nodeKinds spec ++ nodeKindsAll specs

end

/-- Number of nodes of a description. -/
def size (spec : Spec) : ℕ := spec.nodeKinds.length

/-- Number of nodes of descriptions together. -/
def sizeAll (specs : List Spec) : ℕ := (nodeKindsAll specs).length

mutual

/-- The description with tags and attribute names in lower case. -/
def lowercased : Spec → Spec
  | .text content => .text content
  | .comment content => .comment content
  | .element tag attributes children =>
    .element (Text.lowercase tag) (attributes.map fun (name, value) => (Text.lowercase name, value))
      (lowercasedAll children)

/-- Descriptions with tags and attribute names in lower case. -/
def lowercasedAll : List Spec → List Spec
  | [] => []
  | spec :: specs => lowercased spec :: lowercasedAll specs

end

/-- The indices at which descriptions start that follow each other from an index on. -/
def starts (n : NodeId) : List Spec → List NodeId
  | [] => []
  | spec :: specs => n :: starts (n + spec.size) specs

@[simp] theorem size_text (content : String) : (Spec.text content).size = 1 := rfl

@[simp] theorem size_comment (content : String) : (Spec.comment content).size = 1 := rfl

@[simp] theorem size_element (tag : String) (attributes : List (String × String))
    (children : List Spec) :
    (Spec.element tag attributes children).size = sizeAll children + 1 := by
  rw [size, nodeKinds, List.length_cons, sizeAll]

@[simp] theorem sizeAll_nil : sizeAll [] = 0 := rfl

@[simp] theorem sizeAll_cons (spec : Spec) (specs : List Spec) :
    sizeAll (spec :: specs) = spec.size + sizeAll specs := by
  rw [sizeAll, nodeKindsAll, List.length_append, size, sizeAll]

theorem size_pos (spec : Spec) : 0 < spec.size := by
  cases spec <;> simp

end Spec

namespace Tree

variable {t t' : Tree} {p : ℕ}

/-! ## Reading back -/

/-- The description of a node, read through the children, if there are less than `limit` levels
below the node and no document among them. -/
def describeWithin? (t : Tree) : ℕ → NodeId → Option Spec
  | 0, _ => none
  | limit + 1, id =>
    match (t.get? id).map Node.kind with
    | some (.text content) => some (.text content)
    | some (.comment content) => some (.comment content)
    | some (.element e) => do
      let children ← (t.children id).mapM (t.describeWithin? limit)
      some (.element e.tag (e.attributes.map fun a => (a.name, a.value)) children)
    | _ => none

/-- The description of a node. -/
def describe? (t : Tree) (id : NodeId) : Option Spec :=
  t.describeWithin? t.size id

mutual

/-- The description stands in the tree from an index on: its nodes follow each other in pre-order,
and each has just the children that the description gives it. -/
def HoldsFrom (t : Tree) : NodeId → Spec → Prop
  | n, .text content => (t.get? n).map Node.kind = some (.text content) ∧ t.children n = []
  | n, .comment content => (t.get? n).map Node.kind = some (.comment content) ∧ t.children n = []
  | n, .element tag attributes children =>
    (t.get? n).map Node.kind = some (.element (.ofWritten tag attributes)) ∧
      t.children n = Spec.starts (n + 1) children ∧ HoldsAllFrom t (n + 1) children

/-- Descriptions stand in the tree one behind the other. -/
def HoldsAllFrom (t : Tree) : NodeId → List Spec → Prop
  | _, [] => True
  | n, spec :: specs => HoldsFrom t n spec ∧ HoldsAllFrom t (n + spec.size) specs

end

/-! ## What planting adds -/

/-- What held of a stretch of indices still holds where their nodes were not changed. -/
structure SameOn (t t' : Tree) (low high : ℕ) : Prop where
  kind_eq : ∀ x : ℕ, low ≤ x → x < high →
    (t'.get? x).map Node.kind = (t.get? x).map Node.kind
  children_eq : ∀ x : ℕ, low ≤ x → x < high → t'.children x = t.children x

theorem SameOn.mono {low high low' high' : ℕ} (h : t.SameOn t' low high) (hlow : low ≤ low')
    (hhigh : high' ≤ high) : t.SameOn t' low' high' where
  kind_eq x hx hx' := h.kind_eq x (Nat.le_trans hlow hx) (Nat.lt_of_lt_of_le hx' hhigh)
  children_eq x hx hx' := h.children_eq x (Nat.le_trans hlow hx) (Nat.lt_of_lt_of_le hx' hhigh)

mutual

theorem HoldsFrom.congr : ∀ {n : ℕ} {spec : Spec}, t.SameOn t' n (n + spec.size) →
    HoldsFrom t n spec → HoldsFrom t' n spec
  | n, .text content, hsame, ⟨hkind, hchildren⟩ =>
    ⟨(hsame.kind_eq n (Nat.le_refl n) (by simp)).trans hkind,
      (hsame.children_eq n (Nat.le_refl n) (by simp)).trans hchildren⟩
  | n, .comment content, hsame, ⟨hkind, hchildren⟩ =>
    ⟨(hsame.kind_eq n (Nat.le_refl n) (by simp)).trans hkind,
      (hsame.children_eq n (Nat.le_refl n) (by simp)).trans hchildren⟩
  | n, .element tag attributes children, hsame, ⟨hkind, hchildren, hall⟩ => by
    have hbelow : t.SameOn t' (n + 1) (n + 1 + Spec.sizeAll children) := by
      apply hsame.mono (Nat.le_succ n)
      rw [Spec.size_element]
      omega
    exact ⟨(hsame.kind_eq n (Nat.le_refl n) (by simp)).trans hkind,
      (hsame.children_eq n (Nat.le_refl n) (by simp)).trans hchildren,
      HoldsAllFrom.congr hbelow hall⟩

theorem HoldsAllFrom.congr : ∀ {n : ℕ} {specs : List Spec},
    t.SameOn t' n (n + Spec.sizeAll specs) → HoldsAllFrom t n specs → HoldsAllFrom t' n specs
  | _, [], _, _ => trivial
  | n, spec :: specs, hsame, ⟨hfirst, hrest⟩ => by
    rw [Spec.sizeAll_cons] at hsame
    have hbefore : t.SameOn t' n (n + spec.size) := hsame.mono (Nat.le_refl n) (by omega)
    have hbehind : t.SameOn t' (n + spec.size) (n + spec.size + Spec.sizeAll specs) :=
      hsame.mono (by omega) (by omega)
    exact ⟨HoldsFrom.congr hbefore hfirst, HoldsAllFrom.congr hbehind hrest⟩

end

/-- One tree is another one with more nodes at its end. Of the nodes that were there only one gets
new children, and these are listed. -/
structure Extends (t t' : Tree) (p : NodeId) (new : List NodeId) (count : ℕ) : Prop where
  size_eq : t'.size = t.size + count
  kind_eq : ∀ x : ℕ, x < t.size → (t'.get? x).map Node.kind = (t.get? x).map Node.kind
  children_eq : ∀ x : ℕ, x < t.size →
    t'.children x = if x = p then t.children x ++ new else t.children x

namespace Extends

variable {t'' : Tree} {new new' : List NodeId} {count count' : ℕ}

theorem sameOn {low : ℕ} (h : t.Extends t' p new count) (hlow : p < low) :
    t.SameOn t' low t.size where
  kind_eq x _ hx := h.kind_eq x hx
  children_eq x hx hx' := by
    rw [h.children_eq x hx', if_neg (Nat.ne_of_gt (Nat.lt_of_lt_of_le hlow hx))]

theorem refl (t : Tree) (p : ℕ) : t.Extends t p [] 0 where
  size_eq := rfl
  kind_eq _ _ := rfl
  children_eq x _ := by
    rw [List.append_nil, ite_self]

/-- More children of the same node. -/
theorem trans (h : t.Extends t' p new count) (h' : t'.Extends t'' p new' count') :
    t.Extends t'' p (new ++ new') (count + count') where
  size_eq := by rw [h'.size_eq, h.size_eq, Nat.add_assoc]
  kind_eq x hx := by
    have hx' : x < t'.size := by rw [h.size_eq]; omega
    rw [h'.kind_eq x hx', h.kind_eq x hx]
  children_eq x hx := by
    have hx' : x < t'.size := by rw [h.size_eq]; omega
    rw [h'.children_eq x hx', h.children_eq x hx]
    split <;> simp

/-- More nodes below a new node. -/
theorem trans_below {q : ℕ} (h : t.Extends t' p new count)
    (h' : t'.Extends t'' q new' count') (hq : t.size ≤ q) :
    t.Extends t'' p new (count + count') where
  size_eq := by rw [h'.size_eq, h.size_eq, Nat.add_assoc]
  kind_eq x hx := by
    have hx' : x < t'.size := by rw [h.size_eq]; omega
    rw [h'.kind_eq x hx', h.kind_eq x hx]
  children_eq x hx := by
    have hx' : x < t'.size := by rw [h.size_eq]; omega
    rw [h'.children_eq x hx', if_neg (Nat.ne_of_lt (Nat.lt_of_lt_of_le hx hq)),
      h.children_eq x hx]

theorem appendNew (hp : p < t.size) (kind : NodeKind) :
    t.Extends (t.appendNew p kind).1 p [t.size] 1 where
  size_eq := size_appendNew t p kind
  kind_eq x hx := by rw [kind_appendNew, if_neg (Nat.ne_of_lt hx)]
  children_eq x _ := children_appendNew kind hp x

end Extends

/-- A new node has no children. -/
theorem children_newNode (hp : p < t.size) (kind : NodeKind) :
    (t.appendNew p kind).1.children t.size = [] := by
  rw [children_appendNew kind hp, if_neg (Nat.ne_of_gt hp), children,
    get?_eq_none (Nat.le_refl t.size)]
  rfl

theorem kind_newNode (t : Tree) (p : NodeId) (kind : NodeKind) :
    ((t.appendNew p kind).1.get? t.size).map Node.kind = some kind := by
  rw [kind_appendNew, if_pos rfl]

end Tree

/-! ## Planting -/

namespace Spec

mutual

/-- Planting a description adds its nodes at the end, where they are just as it says, and gives the
node that it is planted under the first of them as a child. -/
theorem plant_extends {t : Tree} {p : ℕ} (hp : p < t.size) : ∀ spec : Spec,
    t.Extends (plant t p spec) p [t.size] spec.size ∧ (plant t p spec).HoldsFrom t.size spec
  | .text content =>
    ⟨.appendNew hp (.text content), t.kind_newNode p _, Tree.children_newNode hp _⟩
  | .comment content =>
    ⟨.appendNew hp (.comment content), t.kind_newNode p _, Tree.children_newNode hp _⟩
  | .element tag attributes children => by
    let kind := NodeKind.element (.ofWritten tag attributes)
    let new := (t.appendNew p kind).1
    have hnew : t.Extends new p [t.size] 1 := .appendNew hp kind
    have hlt : t.size < new.size := by
      rw [hnew.size_eq]
      omega
    -- the children come under the new node, so the node that it is planted under gets no other
    obtain ⟨hextends, hall⟩ := plantAll_extends hlt children
    rw [hnew.size_eq] at hextends hall
    refine ⟨?_, ?_, ?_, hall⟩
    · rw [size_element, Nat.add_comm]
      exact hnew.trans_below hextends (Nat.le_refl _)
    · exact (hextends.kind_eq t.size hlt).trans (t.kind_newNode p kind)
    · have hchildren := hextends.children_eq t.size hlt
      rw [if_pos rfl, Tree.children_newNode hp kind, List.nil_append] at hchildren
      exact hchildren

theorem plantAll_extends {t : Tree} {p : ℕ} (hp : p < t.size) : ∀ specs : List Spec,
    t.Extends (plantAll t p specs) p (starts t.size specs) (sizeAll specs) ∧
      (plantAll t p specs).HoldsAllFrom t.size specs
  | [] => ⟨.refl t p, trivial⟩
  | spec :: specs => by
    obtain ⟨hfirst, hholds⟩ := plant_extends hp spec
    have hp' : p < (plant t p spec).size := by
      rw [hfirst.size_eq]
      omega
    obtain ⟨hrest, hall⟩ := plantAll_extends hp' specs
    -- what is planted later leaves the nodes of the first description alone
    have hsame := hrest.sameOn hp
    rw [hfirst.size_eq] at hrest hall hsame
    rw [sizeAll_cons]
    exact ⟨hfirst.trans hrest, hholds.congr hsame, hall⟩

end

end Spec

/-! ## Reading the nodes -/

namespace Tree

variable {t : Tree}

open Spec

mutual

theorem HoldsFrom.map_kind : ∀ {n : ℕ} {spec : Spec}, t.HoldsFrom n spec →
    (List.range' n spec.size).map (fun x => (t.get? x).map Node.kind) = spec.nodeKinds.map some
  | n, .text content, ⟨hkind, _⟩ => by simp [hkind, nodeKinds]
  | n, .comment content, ⟨hkind, _⟩ => by simp [hkind, nodeKinds]
  | n, .element tag attributes children, ⟨hkind, _, hall⟩ => by
    rw [size_element, List.range'_succ, List.map_cons, hkind, hall.map_kind, nodeKinds,
      List.map_cons]

theorem HoldsAllFrom.map_kind : ∀ {n : ℕ} {specs : List Spec}, t.HoldsAllFrom n specs →
    (List.range' n (sizeAll specs)).map (fun x => (t.get? x).map Node.kind) =
      (nodeKindsAll specs).map some
  | _, [], _ => rfl
  | n, spec :: specs, ⟨hfirst, hrest⟩ => by
    rw [sizeAll_cons, ← List.range'_append_1, List.map_append, hfirst.map_kind, hrest.map_kind,
      nodeKindsAll, List.map_append]

end

mutual

/-- The walk down from a description comes to its nodes in the order of their indices. -/
theorem HoldsFrom.subtreeWithin_eq : ∀ {n limit : ℕ} {spec : Spec}, t.HoldsFrom n spec →
    spec.size ≤ limit → t.subtreeWithin limit n = List.range' n spec.size
  | n, 0, spec, _, hlimit => absurd hlimit (Nat.not_le_of_lt spec.size_pos)
  | n, limit + 1, .text content, ⟨_, hchildren⟩, _ => by
    rw [subtreeWithin, hchildren]
    rfl
  | n, limit + 1, .comment content, ⟨_, hchildren⟩, _ => by
    rw [subtreeWithin, hchildren]
    rfl
  | n, limit + 1, .element tag attributes children, ⟨_, hchildren, hall⟩, hlimit => by
    rw [size_element] at hlimit ⊢
    rw [subtreeWithin, hchildren, hall.flatMap_subtreeWithin (Nat.le_of_succ_le_succ hlimit),
      List.range'_succ]

theorem HoldsAllFrom.flatMap_subtreeWithin : ∀ {n limit : ℕ} {specs : List Spec},
    t.HoldsAllFrom n specs → sizeAll specs ≤ limit →
      (starts n specs).flatMap (t.subtreeWithin limit) = List.range' n (sizeAll specs)
  | _, _, [], _, _ => rfl
  | n, limit, spec :: specs, ⟨hfirst, hrest⟩, hlimit => by
    rw [sizeAll_cons] at hlimit ⊢
    rw [starts, List.flatMap_cons, hfirst.subtreeWithin_eq (by omega),
      hrest.flatMap_subtreeWithin (by omega), List.range'_append_1]

end

/-- The nodes of a description have their kinds in pre-order. -/
theorem HoldsFrom.kind_eq {n i : ℕ} {spec : Spec} (h : t.HoldsFrom n spec) (hi : i < spec.size) :
    (t.get? (n + i)).map Node.kind = spec.nodeKinds[i]? := by
  have hkinds := congrArg (fun kinds => kinds[i]?) h.map_kind
  simp only [List.getElem?_map] at hkinds
  rw [List.getElem?_range' hi, Nat.one_mul, Option.map_some] at hkinds
  rw [List.getElem?_eq_getElem hi] at hkinds ⊢
  exact Option.some.inj hkinds

theorem attributes_ofWritten (tag : String) (attributes : List (String × String)) :
    (Element.ofWritten tag attributes).attributes.map (fun a => (a.name, a.value)) =
      attributes.map fun (name, value) => (Text.lowercase name, value) := by
  rw [Element.ofWritten, List.map_map]
  rfl

mutual

/-- What is read from the place of a description is that description. -/
theorem HoldsFrom.describeWithin?_eq : ∀ {n limit : ℕ} {spec : Spec}, t.HoldsFrom n spec →
    spec.size ≤ limit → t.describeWithin? limit n = some spec.lowercased
  | n, 0, spec, _, hlimit => absurd hlimit (Nat.not_le_of_lt spec.size_pos)
  | n, limit + 1, .text content, ⟨hkind, _⟩, _ => by
    rw [describeWithin?, hkind]
    rfl
  | n, limit + 1, .comment content, ⟨hkind, _⟩, _ => by
    rw [describeWithin?, hkind]
    rfl
  | n, limit + 1, .element tag attributes children, ⟨hkind, hchildren, hall⟩, hlimit => by
    rw [size_element] at hlimit
    rw [describeWithin?, hkind, hchildren]
    simp only [hall.mapM_describeWithin? (Nat.le_of_succ_le_succ hlimit), attributes_ofWritten]
    rfl

theorem HoldsAllFrom.mapM_describeWithin? : ∀ {n limit : ℕ} {specs : List Spec},
    t.HoldsAllFrom n specs → sizeAll specs ≤ limit →
      (starts n specs).mapM (t.describeWithin? limit) = some (lowercasedAll specs)
  | _, _, [], _, _ => rfl
  | n, limit, spec :: specs, ⟨hfirst, hrest⟩, hlimit => by
    rw [sizeAll_cons] at hlimit
    rw [starts, List.mapM_cons, hfirst.describeWithin?_eq (by omega),
      hrest.mapM_describeWithin? (by omega), lowercasedAll]
    rfl

end

end Tree

namespace Spec

/-- The tree of a description holds it behind the document, which has nothing else below it. -/
theorem toTree_holdsFrom (spec : Spec) :
    Tree.empty.Extends spec.toTree Tree.root [1] spec.size ∧ spec.toTree.HoldsFrom 1 spec :=
  plant_extends Nat.one_pos spec

theorem size_toTree (spec : Spec) : spec.toTree.size = spec.size + 1 := by
  rw [spec.toTree_holdsFrom.1.size_eq, Nat.add_comm]
  rfl

theorem children_root_toTree (spec : Spec) : spec.toTree.children Tree.root = [1] :=
  spec.toTree_holdsFrom.1.children_eq Tree.root Nat.one_pos

/-- The nodes of a description stand behind the document in the order of their indices. -/
theorem kind_toTree (spec : Spec) (id : NodeId) :
    (spec.toTree.get? id).map Node.kind = (.document :: spec.nodeKinds)[id]? := by
  obtain ⟨hextends, hholds⟩ := spec.toTree_holdsFrom
  cases id with
  | zero => exact hextends.kind_eq Tree.root Nat.one_pos
  | succ id =>
    -- behind the document, index 1 is the first node of the description
    rw [List.getElem?_cons_succ]
    rcases Nat.lt_or_ge id spec.size with hid | hid
    · rw [Nat.succ_eq_one_add]
      exact hholds.kind_eq hid
    · have hsize := spec.size_toTree
      rw [List.getElem?_eq_none hid, Tree.get?_eq_none (by omega)]
      rfl

/-- The walk down from the document comes to the nodes in the order of their indices. -/
theorem subtree_root_toTree (spec : Spec) :
    spec.toTree.subtree Tree.root = List.range spec.toTree.size := by
  -- no description has more levels than nodes, so the bound of the walk does not cut it off
  have hholds := spec.toTree_holdsFrom.2
  rw [Tree.subtree, spec.size_toTree, Tree.subtreeWithin, spec.children_root_toTree,
    List.flatMap_singleton, hholds.subtreeWithin_eq (Nat.le_refl _), List.range_eq_range',
    List.range'_succ]
  rfl

/-- The tree of a description has one node for each of its nodes besides the document. They are
numbered in pre-order: the node of each index is of the kind that is due, and the walk down from the
document comes to the indices one after the other. The document has one child, and what is read
from there is the description, with tags and attribute names in lower case. -/
theorem toTree_reads_back (spec : Spec) :
    let t := spec.toTree
    t.size = spec.nodeKinds.length + 1 ∧
      (∀ id, (t.get? id).map Node.kind = (.document :: spec.nodeKinds)[id]?) ∧
      t.subtree Tree.root = List.range t.size ∧
      t.children Tree.root = [1] ∧
      t.describe? 1 = some spec.lowercased := by
  intro t
  have hholds := spec.toTree_holdsFrom.2
  have hsize : t.size = spec.size + 1 := spec.size_toTree
  refine ⟨hsize, spec.kind_toTree, spec.subtree_root_toTree, spec.children_root_toTree, ?_⟩
  exact hholds.describeWithin?_eq (by omega)

/-- An attribute that is given twice stays, and so does the case of texts and values. -/
example :
    (Spec.element "UL" [("CLASS", "A"), ("class", "B")]
      [.element "Li" [] [.text "X"], .comment "C"]).toTree.describe? 1 =
      some (.element "ul" [("class", "A"), ("class", "B")]
        [.element "li" [] [.text "X"], .comment "C"]) := by
  rfl

end Spec

end BoxFlow
