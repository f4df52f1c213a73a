import BoxFlow.Layout.Page
import BoxFlow.Proofs.Dom.Subtree
import BoxFlow.Proofs.Text.Ink

/-!
# The text that is to be shown

The texts to be shown of a node are those at and below it, in document order, except those with a
hidden element on the way down to them, the node itself included (`Page.shownTexts`). In the tree
of a description they can be collected from the top: a hidden element gives nothing, any other node
its own text and then what its children give (`Page.shownTexts_eq`).
-/

set_option autoImplicit false

namespace BoxFlow.Page

variable {page : Page} {id n c : NodeId}

/-- No element between two nodes, both included, is hidden. -/
def IsShownFrom (page : Page) (id n : NodeId) : Prop :=
  ∀ x ∈ page.tree.subtree id, n ∈ page.tree.subtree x →
    (page.tree.element? x).isSome → page.isHidden x = false

instance (page : Page) (id n : NodeId) : Decidable (page.IsShownFrom id n) :=
  inferInstanceAs (Decidable (∀ x ∈ page.tree.subtree id, _))

/-- The texts at and below a node that have no hidden element on the way, in document order. -/
def shownTexts (page : Page) (id : NodeId) : List String :=
  ((page.tree.subtree id).filter fun n => page.IsShownFrom id n).filterMap page.tree.text?

/-- The ink of the texts that are to be shown of a node. -/
def shownInk (page : Page) (id : NodeId) : List Char :=
  (page.shownTexts id).flatMap fun content => Text.ink content.toList

/-! ## From the top down -/

/-- Whether a node is an element that is hidden. -/
def hides (page : Page) (id : NodeId) : Bool :=
  (page.tree.element? id).isSome && page.isHidden id

theorem isHidden_eq_false_of_not_hides (h : page.hides id = false)
    (helement : (page.tree.element? id).isSome) : page.isHidden id = false := by
  rw [hides, helement, Bool.true_and] at h
  exact h

/-- Nothing is shown below a hidden element. -/
theorem not_isShownFrom_of_hides (h : page.tree.Planted) (hid : page.hides id = true)
    (hn : n ∈ page.tree.subtree id) : ¬ page.IsShownFrom id n := by
  intro hshown
  obtain ⟨helement, hhidden⟩ := Bool.and_eq_true_iff.1 hid
  rw [hshown id (h.self_mem_subtree id) hn helement] at hhidden
  exact absurd hhidden Bool.false_ne_true

theorem isShownFrom_self (h : page.tree.Planted) (hid : page.hides id = false) :
    page.IsShownFrom id id := by
  intro x hx hself helement
  obtain rfl : x = id := Nat.le_antisymm (h.le_of_mem_subtree hself) (h.le_of_mem_subtree hx)
  exact isHidden_eq_false_of_not_hides hid helement

/-- On the way down to a node below a child, only the node itself comes in front of the child. -/
theorem isShownFrom_child (h : page.tree.Planted) (hid : page.hides id = false)
    (hc : c ∈ page.tree.children id) (hn : n ∈ page.tree.subtree c) :
    page.IsShownFrom id n ↔ page.IsShownFrom c n := by
  constructor
  · intro hshown x hx
    exact hshown x (h.mem_subtree_of_child hc hx)
  · intro hshown x hx hbelow helement
    rcases h.mem_subtree_iff.1 hx with rfl | ⟨c', hc', hx⟩
    · exact isHidden_eq_false_of_not_hides hid helement
    · obtain rfl := h.eq_of_mem_subtree hc hc' hn (h.mem_subtree_trans hx hbelow)
      exact hshown x hx hbelow helement

theorem shownTexts_eq (h : page.tree.Planted) (id : NodeId) :
    page.shownTexts id =
      if page.hides id then []
      else (page.tree.text? id).toList ++ (page.tree.children id).flatMap page.shownTexts := by
  split
  · next hid =>
    have hnone : (page.tree.subtree id).filter (fun n => page.IsShownFrom id n) = [] := by
      apply List.filter_eq_nil_iff.2
      intro n hn hshown
      exact not_isShownFrom_of_hides h hid hn (of_decide_eq_true hshown)
    rw [shownTexts, hnone, List.filterMap_nil]
  · next hid =>
    rw [Bool.not_eq_true] at hid
    have hchild : ∀ c ∈ page.tree.children id,
        (page.tree.subtree c).filter (fun n => page.IsShownFrom id n) =
          (page.tree.subtree c).filter fun n => page.IsShownFrom c n := by
      intro c hc
      apply List.filter_congr
      intro n hn
      exact decide_eq_decide.2 (isShownFrom_child h hid hc hn)
    rw [shownTexts, h.subtree_eq id, List.filter_cons,
      if_pos (decide_eq_true (isShownFrom_self h hid)), List.filter_flatMap,
      List.flatMap_congr hchild]
    cases htext : page.tree.text? id with
    | none => rw [List.filterMap_cons_none htext, List.filterMap_flatMap]; rfl
    | some content => rw [List.filterMap_cons_some htext, List.filterMap_flatMap]; rfl

/-! ## By kinds of nodes -/

theorem shownInk_eq (h : page.tree.Planted) (id : NodeId) :
    page.shownInk id =
      if page.hides id then []
      else ((page.tree.text? id).toList.flatMap fun content => Text.ink content.toList) ++
        (page.tree.children id).flatMap page.shownInk := by
  rw [shownInk, shownTexts_eq h]
  split
  · rfl
  · rw [List.flatMap_append, List.flatMap_assoc]
    rfl

theorem shownInk_element (h : page.tree.Planted) {e : Element}
    (hkind : (page.tree.get? id).map Node.kind = some (.element e)) :
    page.shownInk id =
      if page.isHidden id then [] else (page.tree.children id).flatMap page.shownInk := by
  rw [shownInk_eq h, hides, Tree.element?, Tree.text?, hkind]
  rfl

theorem shownInk_eq_nil (h : page.tree.Planted) (hchildren : page.tree.children id = [])
    (htext : page.tree.text? id = none) : page.shownInk id = [] := by
  rw [shownInk_eq h, hchildren, htext]
  split <;> rfl

/-- A text is shown as it is; nothing is below it. -/
theorem shownInk_text (h : page.tree.Planted) {content : String}
    (hkind : (page.tree.get? id).map Node.kind = some (.text content)) :
    page.shownInk id = Text.ink content.toList := by
  have hholds := h.not_holds hkind NodeKind.noConfusion fun _ => NodeKind.noConfusion
  rw [shownInk_eq h, hides, Tree.element?, Tree.text?, hkind, h.children_eq_nil hholds]
  show [content].flatMap (fun content => Text.ink content.toList) ++ [] = _
  rw [List.append_nil, List.flatMap_singleton]

/-- A comment shows nothing. -/
theorem shownInk_comment (h : page.tree.Planted) {content : String}
    (hkind : (page.tree.get? id).map Node.kind = some (.comment content)) :
    page.shownInk id = [] := by
  have hholds := h.not_holds hkind NodeKind.noConfusion fun _ => NodeKind.noConfusion
  exact shownInk_eq_nil h (h.children_eq_nil hholds) (by rw [Tree.text?, hkind])

/-- An unknown node shows nothing. -/
theorem shownInk_none (h : page.tree.Planted)
    (hkind : (page.tree.get? id).map Node.kind = none) : page.shownInk id = [] := by
  refine shownInk_eq_nil h ?_ (by rw [Tree.text?, hkind])
  rw [Tree.children, Option.map_eq_none_iff.1 hkind]
  rfl

theorem shownInk_document (h : page.tree.Planted)
    (hkind : (page.tree.get? id).map Node.kind = some .document) :
    page.shownInk id = (page.tree.children id).flatMap page.shownInk := by
  rw [shownInk_eq h, hides, Tree.element?, Tree.text?, hkind]
  rfl

end BoxFlow.Page
