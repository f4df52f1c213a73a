import BoxFlow.Proofs.Layout.Reading

/-!
# The nodes a layout looks at

All that a layout gets to from a node, and all that is read on the way, is at or below this node
(`Page.Reaches.closed`, `Page.Reads.closed`). Besides, a list item is drawn with the marker which
its parent gives to it, and the number of all nodes bounds the walks. So two trees that agree on
some nodes, among them all that are below these, give them the same layout
(`Page.place_of_agreesOn`), whatever stands elsewhere.
-/

set_option autoImplicit false

namespace BoxFlow

namespace Tree

variable {t t' : Tree} {S : NodeId → Prop} {x : NodeId}

/-- The trees agree on some nodes, which include all nodes below them. -/
structure AgreesOn (t t' : Tree) (S : NodeId → Prop) : Prop where
  get?_eq : ∀ {x : NodeId}, S x → t'.get? x = t.get? x
  child : ∀ {x c : NodeId}, S x → c ∈ t.children x → S c
  marker?_eq : ∀ {x : NodeId}, S x → t'.marker? x = t.marker? x
  size_eq : t'.size = t.size

namespace AgreesOn

theorem text?_eq (h : t.AgreesOn t' S) (hx : S x) : t'.text? x = t.text? x := by
  rw [text?, text?, h.get?_eq hx]

theorem sameShapeOn (h : t.AgreesOn t' S) : t.SameShapeOn t' S where
  atNode hx := by rw [SameShapeAt, h.get?_eq hx]
  child := h.child
  size_eq := h.size_eq

end AgreesOn

/-- Nodes closed under children hold whole subtrees. -/
theorem closed_of_mem_subtree (hchild : ∀ {x c : NodeId}, S x → c ∈ t.children x → S c)
    (hx : S x) {n : NodeId} (hn : n ∈ t.subtree x) : S n := by
  rw [subtree] at hn
  generalize t.size = limit at hn
  induction limit generalizing x with
  | zero => exact absurd hn List.not_mem_nil
  | succ limit ih =>
    rw [subtreeWithin, List.mem_cons, List.mem_flatMap] at hn
    rcases hn with rfl | ⟨c, hc, hn⟩
    · exact hx
    · exact ih (hchild hx hc) hn

end Tree

namespace Page

variable {page : Page} {t' : Tree} {S : NodeId → Prop} {id n : NodeId} {levels : ℕ}

section Closed

variable (hchild : ∀ {x c : NodeId}, S x → c ∈ page.tree.children x → S c)

include hchild

theorem Reaches.closed (h : page.Reaches levels id n) (hid : S id) : S n := by
  induction h with
  | self => exact hid
  | child _ hc _ ih => exact ih (hchild hid hc)

theorem InParagraph.closed (h : page.InParagraph id n) (hid : S id) : S n := by
  induction h with
  | child hn => exact hchild hid hn
  | deeper hc _ _ _ ih => exact ih (hchild hid hc)

/-- An element reads nothing but texts below it. -/
theorem Reads.closed (h : page.Reads id n) (hid : S id) : S n := by
  have hfirst : ∀ {x c : NodeId}, S x → page.tree.firstChild? x = some c → S c :=
    fun hx hc => hchild hx (List.mem_of_head? hc)
  have helement : ∀ {x c : NodeId}, S x → c ∈ page.tree.elementChildren x → S c :=
    fun hx hc => hchild hx (List.mem_of_mem_filter hc)
  cases h with
  | leading _ _ hn => exact hfirst hid hn
  | borrowed _ _ hhead hn => exact hfirst (helement hid (List.mem_of_head? hhead)) hn
  | paragraph _ hn => exact hn.closed hchild hid
  | separator _ hsplit _ =>
    exact hchild hid (hsplit ▸ List.mem_append_right _ List.mem_cons_self)
  | cell _ hbody hrow hcell hn =>
    have hrow' := helement (hchild hid (mem_children_of_tableBody? hbody))
      (List.mem_of_mem_filter hrow)
    exact Tree.closed_of_mem_subtree hchild
      (helement hrow' (List.mem_of_mem_filter hcell)) hn

end Closed

/-- Nodes that two trees agree on are laid out in the same way. -/
theorem place_of_agreesOn (h : page.tree.AgreesOn t' S) (levels : ℕ) (hid : S id) :
    (page.withTree t').place levels id = page.place levels id := by
  apply place_withTree_of_reads h.sameShapeOn h.marker?_eq hid
  · intro n hn
    exact h.text?_eq (hn.closed h.child hid)
  · intro m hm _ n hn
    exact h.text?_eq (hn.closed h.child (hm.closed h.child hid))

end Page

end BoxFlow
