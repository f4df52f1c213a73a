import BoxFlow.Proofs.Dom.Order
import BoxFlow.Proofs.Dom.WalksDown

/-!
# Subtrees of described trees

In a tree that comes from a description every node has a greater index than its parent, and only
the document and elements have children (`Tree.Planted`, kept by `Spec.plant`). So walks down end
before their limit: a subtree is its root followed by the subtrees of the children
(`Tree.Planted.subtree_eq`), facts about all nodes can be shown from the leaves up
(`Tree.Planted.induction`), and the subtrees of two children have no node in common
(`Tree.Planted.eq_of_mem_subtree`).
-/

set_option autoImplicit false

namespace BoxFlow

namespace Tree

variable {t : Tree} {c c' id m n p x : ℕ}

/-! ## Adding nodes -/

theorem kind_appendNew (t : Tree) (p : NodeId) (kind : NodeKind) (x : NodeId) :
    ((t.appendNew p kind).1.get? x).map Node.kind =
      if x = t.size then some kind else (t.get? x).map Node.kind := by
  rw [appendNew, kind_append, get?_alloc]
  split <;> rfl

/-- A new node is accepted under every known one. -/
theorem canAppend_alloc (kind : NodeKind) (hp : p < t.size) :
    (t.alloc kind).1.canAppend p t.size := by
  have hfree : t.parent? t.size = none := by rw [parent?, get?_eq_none (Nat.le_refl _)]; rfl
  have hsize : (t.alloc kind).1.size = t.size + 1 := Array.size_push _
  rw [canAppend_iff, parent?_alloc, hsize]
  exact ⟨Nat.ne_of_lt hp, Nat.lt_succ_of_lt hp, Nat.lt_succ_self _, hfree⟩

/-- A new node gets the parent that is asked for, if this is known. -/
theorem parent?_appendNew (kind : NodeKind) (hp : p < t.size) (x : NodeId) :
    (t.appendNew p kind).1.parent? x = if x = t.size then some p else t.parent? x := by
  rw [appendNew, parent?_append, parent?_alloc]
  exact if_congr ⟨And.right, fun hx => ⟨canAppend_alloc kind hp, hx⟩⟩ rfl rfl

theorem children_appendNew (kind : NodeKind) (hp : p < t.size) (x : NodeId) :
    (t.appendNew p kind).1.children x =
      if x = p then t.children x ++ [t.size] else t.children x := by
  rw [appendNew, children_append, children_alloc]
  exact if_congr ⟨And.right, fun hx => ⟨canAppend_alloc kind hp, hx⟩⟩ rfl rfl

theorem size_appendNew (t : Tree) (p : NodeId) (kind : NodeKind) :
    (t.appendNew p kind).1.size = t.size + 1 := by
  rw [appendNew, size_append]
  exact Array.size_push _

/-- The nodes that may have children: the document and elements. -/
def Holds (t : Tree) (p : NodeId) : Prop := p = root ∨ (t.element? p).isSome

theorem kind_of_element? {e : Element} (h : t.element? x = some e) :
    (t.get? x).map Node.kind = some (.element e) := by
  rw [element?] at h
  split at h
  · next hkind => rw [hkind, Option.some.inj h]
  · cases h

theorem isTag_iff {e : Element} (h : (t.get? x).map Node.kind = some (.element e)) (tag : String) :
    t.isTag x tag ↔ e.tag = tag := by
  rw [isTag, tag?, element?, h, beq_iff_eq]
  exact Option.some_inj

theorem isTag_of_element? {e : Element} (h : t.element? x = some e) : t.isTag x e.tag :=
  (isTag_iff (kind_of_element? h) e.tag).2 rfl

theorem exists_element?_of_isTag {tag : String} (h : t.isTag x tag) :
    ∃ e, t.element? x = some e ∧ e.tag = tag :=
  Option.map_eq_some_iff.1 (eq_of_beq h)

/-- Only elements have a tag, so asking for one leaves the same nodes out. -/
theorem filter_isTag_filter_element? {ids : List NodeId} {tag : String} :
    ((ids.filter fun y => (t.element? y).isSome).filter (t.isTag · tag)) =
      ids.filter (t.isTag · tag) := by
  rw [List.filter_filter]
  apply List.filter_congr
  intro y _
  cases he : t.element? y with
  | none => simp [isTag, tag?, he]
  | some e => simp

theorem lt_size_of_element? (h : (t.element? x).isSome) : x < t.size := by
  by_contra hx
  rw [element?, get?_eq_none (Nat.le_of_not_lt hx)] at h
  exact absurd h (by decide)

theorem lt_size_of_isTag {tag : String} (h : t.isTag x tag) : x < t.size := by
  obtain ⟨e, he, -⟩ := exists_element?_of_isTag h
  exact lt_size_of_element? (Option.isSome_of_eq_some he)

theorem element?_appendNew (kind : NodeKind) (p : NodeId) (hx : x < t.size) :
    (t.appendNew p kind).1.element? x = t.element? x := by
  rw [element?, kind_appendNew, if_neg (Nat.ne_of_lt hx), element?]

theorem Holds.appendNew (h : t.Holds x) (p : NodeId) (kind : NodeKind) :
    (t.appendNew p kind).1.Holds x := by
  rcases h with hroot | helement
  · exact Or.inl hroot
  · exact Or.inr (by rwa [element?_appendNew kind p (lt_size_of_element? helement)])

/-! ## Described trees -/

/-- Nodes are linked to nodes in front of them only, namely to the document or elements, and there
is no other document. -/
structure Planted (t : Tree) : Prop where
  linked : t.Linked
  parent_lt : ∀ {c p : ℕ}, t.parent? c = some p → p < c
  parent_holds : ∀ {c p : ℕ}, t.parent? c = some p → t.Holds p
  eq_root : ∀ {x : ℕ}, (t.get? x).map Node.kind = some .document → x = root

namespace Planted

theorem ordered (h : t.Planted) : t.Ordered := ⟨h.linked, h.parent_lt⟩

theorem lt_size_of_holds (h : t.Planted) (hp : t.Holds p) : p < t.size := by
  rcases hp with rfl | helement
  · exact h.linked.size_pos
  · exact lt_size_of_element? helement

/-- A node that may have children is a document or an element. -/
theorem not_holds (h : t.Planted) {kind : NodeKind} (hkind : (t.get? p).map Node.kind = some kind)
    (hdocument : kind ≠ .document) (helement : ∀ e, kind ≠ .element e) : ¬ t.Holds p := by
  rintro (rfl | hsome)
  · exact hdocument (Option.some.inj (hkind.symm.trans h.linked.root_is_document))
  · rw [element?, hkind] at hsome
    cases kind with
    | element e => exact helement e rfl
    | document => cases hsome
    | text content => cases hsome
    | comment content => cases hsome

theorem empty : Tree.empty.Planted where
  linked := .empty
  parent_lt := Ordered.empty.parent_lt
  parent_holds := by
    intro c p hp
    have hc : c < 1 := lt_size_of_parent? hp
    obtain rfl : c = 0 := Nat.lt_one_iff.1 hc
    exact absurd hp.symm (Option.some_ne_none p)
  eq_root := by
    intro x hx
    by_contra hne
    have hnone : Tree.empty.get? x = none := get?_eq_none (Nat.pos_of_ne_zero hne)
    rw [hnone] at hx
    exact absurd hx (by decide)

/-- A new node that is no document keeps the order, if it goes under a node that may have
children. -/
theorem appendNew (h : t.Planted) (hp : t.Holds p) {kind : NodeKind} (hkind : kind ≠ .document) :
    (t.appendNew p kind).1.Planted where
  linked := (h.ordered.appendNew p kind).linked
  parent_lt := (h.ordered.appendNew p kind).parent_lt
  parent_holds := by
    intro c q hq
    rw [parent?_appendNew kind (h.lt_size_of_holds hp)] at hq
    split at hq
    · obtain rfl := Option.some.inj hq
      exact hp.appendNew p kind
    · exact (h.parent_holds hq).appendNew p kind
  eq_root := by
    intro x hx
    rw [kind_appendNew] at hx
    split at hx
    · exact absurd (Option.some.inj hx) hkind
    · exact h.eq_root hx

end Planted

end Tree

/-! ## Planting a description -/

namespace Spec

mutual

/-- Planting a description keeps the order of a tree, and what may have children. -/
theorem planted_plant {t : Tree} {p : NodeId} (h : t.Planted) (hp : t.Holds p) :
    ∀ spec : Spec, (plant t p spec).Planted ∧ ∀ x, t.Holds x → (plant t p spec).Holds x
  | .text content =>
    ⟨h.appendNew hp NodeKind.noConfusion, fun _ hx => hx.appendNew p (.text content)⟩
  | .comment content =>
    ⟨h.appendNew hp NodeKind.noConfusion, fun _ hx => hx.appendNew p (.comment content)⟩
  | .element tag attributes children => by
    let kind := NodeKind.element (.ofWritten tag attributes)
    have hnew : (t.appendNew p kind).1.Planted := h.appendNew hp NodeKind.noConfusion
    have helement : (t.appendNew p kind).1.element? t.size = some (.ofWritten tag attributes) := by
      rw [Tree.element?, Tree.kind_appendNew, if_pos rfl]
    have hholds : (t.appendNew p kind).1.Holds t.size := Or.inr (by rw [helement]; rfl)
    obtain ⟨hplanted, hkept⟩ := planted_plantAll hnew hholds children
    exact ⟨hplanted, fun x hx => hkept x (hx.appendNew p kind)⟩

theorem planted_plantAll {t : Tree} {p : NodeId} (h : t.Planted) (hp : t.Holds p) :
    ∀ specs : List Spec,
      (plantAll t p specs).Planted ∧ ∀ x, t.Holds x → (plantAll t p specs).Holds x
  | [] => ⟨h, fun _ hx => hx⟩
  | spec :: specs => by
    obtain ⟨hfirst, hkept⟩ := planted_plant h hp spec
    obtain ⟨hrest, hkept'⟩ := planted_plantAll hfirst (hkept p hp) specs
    exact ⟨hrest, fun x hx => hkept' x (hkept x hx)⟩

end

/-- The tree of a description is ordered. -/
theorem planted_toTree (spec : Spec) : spec.toTree.Planted :=
  (planted_plant Tree.Planted.empty (Or.inl rfl) spec).1

end Spec

/-! ## Walks down -/

namespace Tree

variable {t : Tree} {c c' id m n p x : ℕ}

namespace Planted

theorem lt_of_mem_children (h : t.Planted) (hc : c ∈ t.children id) : id < c :=
  h.parent_lt ((h.linked.mem_children_iff id c).1 hc)

theorem lt_size_of_mem_children (h : t.Planted) (hc : c ∈ t.children id) : c < t.size :=
  lt_size_of_parent? ((h.linked.mem_children_iff id c).1 hc)

/-- A node that is neither the document nor an element has no children. -/
theorem children_eq_nil (h : t.Planted) (hid : ¬ t.Holds id) : t.children id = [] := by
  rw [List.eq_nil_iff_forall_not_mem]
  intro c hc
  exact hid (h.parent_holds ((h.linked.mem_children_iff id c).1 hc))

/-- What holds of a node if it holds of its children holds of every node. -/
theorem induction (h : t.Planted) {P : NodeId → Prop}
    (step : ∀ id, (∀ c ∈ t.children id, P c) → P id) (id : NodeId) : P id := by
  -- on the number of nodes behind `id`, since children have greater indices
  induction hk : t.size - id using Nat.strongRecOn generalizing id with
  | ind k ih =>
    apply step
    intro c hc
    have hlt := h.lt_of_mem_children hc
    have hsize := h.lt_size_of_mem_children hc
    exact ih (t.size - c) (by omega) c rfl

theorem not_above_self (h : t.Planted) (id : NodeId) : ¬ t.Above id id :=
  fun hloop => Nat.lt_irrefl id (h.ordered.lt_of_above hloop)

/-- A subtree is its root and the subtrees of the children. -/
theorem subtree_eq (h : t.Planted) (id : NodeId) :
    t.subtree id = id :: (t.children id).flatMap t.subtree :=
  subtree_eq_of_not_above_self h.linked (h.not_above_self id)

theorem mem_subtree_iff (h : t.Planted) :
    n ∈ t.subtree id ↔ n = id ∨ ∃ c ∈ t.children id, n ∈ t.subtree c := by
  rw [h.subtree_eq, List.mem_cons, List.mem_flatMap]

theorem self_mem_subtree (h : t.Planted) (id : NodeId) : id ∈ t.subtree id :=
  h.mem_subtree_iff.2 (Or.inl rfl)

theorem mem_subtree_of_child (h : t.Planted) (hc : c ∈ t.children id) (hn : n ∈ t.subtree c) :
    n ∈ t.subtree id :=
  h.mem_subtree_iff.2 (Or.inr ⟨c, hc, hn⟩)

theorem le_of_mem_subtree (h : t.Planted) : ∀ {id n : NodeId}, n ∈ t.subtree id → id ≤ n := by
  intro id
  induction id using h.induction with
  | _ id ih =>
    intro n hn
    rcases h.mem_subtree_iff.1 hn with rfl | ⟨c, hc, hn⟩
    · exact Nat.le_refl n
    · exact Nat.le_trans (Nat.le_of_lt (h.lt_of_mem_children hc)) (ih c hc hn)

theorem mem_subtree_trans (h : t.Planted) (hm : m ∈ t.subtree id) (hn : n ∈ t.subtree m) :
    n ∈ t.subtree id := by
  induction id using h.induction with
  | _ id ih =>
    rcases h.mem_subtree_iff.1 hm with rfl | ⟨c, hc, hm⟩
    · exact hn
    · exact h.mem_subtree_of_child hc (ih c hc hm)

/-- A node below another has a parent that is not above it. -/
theorem exists_parent_of_mem_subtree (h : t.Planted) (hn : n ∈ t.subtree id) (hne : n ≠ id) :
    ∃ p, t.parent? n = some p ∧ p ∈ t.subtree id := by
  induction id using h.induction with
  | _ id ih =>
    rcases h.mem_subtree_iff.1 hn with rfl | ⟨c, hc, hn⟩
    · exact absurd rfl hne
    · by_cases heq : n = c
      · exact ⟨id, heq ▸ (h.linked.mem_children_iff id c).1 hc, h.self_mem_subtree id⟩
      · obtain ⟨p, hp, hmem⟩ := ih c hc hn heq
        exact ⟨p, hp, h.mem_subtree_of_child hc hmem⟩

/-- A child is not below another child of its parent. -/
theorem eq_of_child_mem_subtree (h : t.Planted) (hc : c ∈ t.children id)
    (hc' : c' ∈ t.children id) (hmem : c ∈ t.subtree c') : c = c' := by
  by_contra hne
  obtain ⟨p, hp, hbelow⟩ := h.exists_parent_of_mem_subtree hmem hne
  rw [(h.linked.mem_children_iff id c).1 hc] at hp
  obtain rfl := Option.some.inj hp
  exact Nat.not_le_of_lt (h.lt_of_mem_children hc') (h.le_of_mem_subtree hbelow)

/-- No node lies below two children of a node. -/
theorem eq_of_mem_subtree (h : t.Planted) (hc : c ∈ t.children id) (hc' : c' ∈ t.children id)
    (hn : n ∈ t.subtree c) (hn' : n ∈ t.subtree c') : c = c' := by
  -- a common node has a common parent, until one of the children is reached
  induction n using Nat.strongRecOn with
  | ind n ih =>
    by_cases heq : n = c
    · subst heq
      exact h.eq_of_child_mem_subtree hc hc' hn'
    · by_cases heq' : n = c'
      · subst heq'
        exact (h.eq_of_child_mem_subtree hc' hc hn).symm
      · obtain ⟨p, hp, hmem⟩ := h.exists_parent_of_mem_subtree hn heq
        obtain ⟨p', hp', hmem'⟩ := h.exists_parent_of_mem_subtree hn' heq'
        obtain rfl : p = p' := Option.some.inj (hp.symm.trans hp')
        exact ih p (h.parent_lt hp) hmem hmem'

end Planted

end Tree

end BoxFlow
