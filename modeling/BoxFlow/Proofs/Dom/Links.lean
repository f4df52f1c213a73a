import BoxFlow.Dom.Tree
import Mathlib.Data.List.Basic

/-!
# Links of a tree

Trees are built by allocating nodes and appending one node to another (`Tree.Built`), with whatever
indices. However that was done, the two directions of a link agree: a node is among the children of
another exactly if that one is its parent, and index 0 remains the document
(`Tree.Built.linked`). A node lies above another if a chain of parents leads to it (`Tree.Above`);
where that is decided at a node, its parent comes first (`Tree.Above.eq_or_above`).
-/

set_option autoImplicit false

namespace BoxFlow

namespace Tree

variable {t : Tree} {a c p x : NodeId}

/-! ## What one step of building does to the links -/

theorem get?_modify (t : Tree) (id : NodeId) (change : Node → Node) (x : NodeId) :
    (t.modify id change).get? x = if id = x then (t.get? x).map change else t.get? x :=
  Array.getElem?_modify

/-- A part of a node that a change of some node leaves alone, wherever it is looked up. -/
theorem map_get?_modify {α : Type} {part : Node → α} {change : Node → Node}
    (h : ∀ n, part (change n) = part n) (t : Tree) (id x : NodeId) :
    ((t.modify id change).get? x).map part = (t.get? x).map part := by
  rw [get?_modify]
  split
  · rw [Option.map_map]
    exact congrArg (fun f => (t.get? x).map f) (funext h)
  · rfl

theorem bind_eq_join (node : Option Node) (link : Node → Option NodeId) :
    node.bind link = (node.map link).join := by
  cases node <;> rfl

theorem get?_eq_none (h : t.size ≤ x) : t.get? x = none :=
  Array.getElem?_eq_none h

theorem text?_eq_none (h : t.size ≤ x) : t.text? x = none := by
  rw [text?, get?_eq_none h]
  rfl

/-- A node that is linked to something is known. -/
theorem lt_size_of_parent? (h : t.parent? x = some p) : x < t.size := by
  by_contra hx
  rw [parent?, get?_eq_none (Nat.le_of_not_lt hx)] at h
  exact absurd h (by simp)

theorem get?_alloc (t : Tree) (kind : NodeKind) (x : NodeId) :
    (t.alloc kind).1.get? x = if x = t.size then some { kind } else t.get? x :=
  Array.getElem?_push

/-- A new node comes without links: every link leads where it led before. -/
theorem bind_get?_alloc {link : Node → Option NodeId} {kind : NodeKind}
    (hlink : link { kind } = none) (t : Tree) (x : NodeId) :
    ((t.alloc kind).1.get? x).bind link = (t.get? x).bind link := by
  rw [get?_alloc]
  split
  · next hx =>
    rw [get?_eq_none (Nat.le_of_eq hx.symm)]
    exact hlink
  · rfl

theorem parent?_alloc (t : Tree) (kind : NodeKind) (x : NodeId) :
    (t.alloc kind).1.parent? x = t.parent? x :=
  bind_get?_alloc rfl t x

theorem next?_alloc (t : Tree) (kind : NodeKind) (x : NodeId) :
    (t.alloc kind).1.next? x = t.next? x :=
  bind_get?_alloc rfl t x

theorem previous?_alloc (t : Tree) (kind : NodeKind) (x : NodeId) :
    (t.alloc kind).1.previous? x = t.previous? x :=
  bind_get?_alloc rfl t x

theorem children_alloc (t : Tree) (kind : NodeKind) (x : NodeId) :
    (t.alloc kind).1.children x = t.children x := by
  rw [children, children, get?_alloc]
  split
  · next hx =>
    rw [get?_eq_none (Nat.le_of_eq hx.symm)]
    rfl
  · rfl

theorem canAppend_iff : t.canAppend p c = true ↔
    p ≠ c ∧ p < t.size ∧ c < t.size ∧ t.parent? c = none := by
  simp [canAppend, and_assoc]

/-- Appending changes no more than the links. -/
theorem kind_append (t : Tree) (p c x : NodeId) :
    ((t.append p c).get? x).map Node.kind = (t.get? x).map Node.kind := by
  rw [append]
  split
  · cases (t.children p).getLast? with
    | none => simp only [map_get?_modify, implies_true]
    | some l => simp only [map_get?_modify, implies_true]
  · rfl

theorem size_append (t : Tree) (p c : NodeId) : (t.append p c).size = t.size := by
  have hmodify : ∀ (t : Tree) (id : NodeId) (change : Node → Node),
      (t.modify id change).size = t.size := fun _ _ _ => Array.size_modify
  rw [append]
  split
  · cases (t.children p).getLast? with
    | none => simp only [hmodify]
    | some l => simp only [hmodify]
  · rfl

/-- What appending does to a part of a node that does not know the next sibling. -/
theorem map_get?_append {α : Type} {part : Node → α}
    (hpart : ∀ n next, part { n with next } = part n) (h : t.canAppend p c) (x : NodeId) :
    ((t.append p c).get? x).map part =
      (((t.modify p fun n => { n with children := n.children ++ [c] }).modify c fun n =>
        { n with parent := some p, previous := (t.children p).getLast? }).get? x).map part := by
  rw [append, if_pos h]
  cases (t.children p).getLast? with
  | none => rfl
  | some l => exact map_get?_modify (fun n => hpart n (some c)) _ l x

/-- Where a link of the child that is appended leads. No other node gets such a link. -/
theorem bind_get?_append {link : Node → Option NodeId} {value : Option NodeId}
    (hnext : ∀ (n : Node) next, link { n with next } = link n)
    (hchildren : ∀ (n : Node) children, link { n with children } = link n)
    (hvalue : ∀ n : Node,
      link { n with parent := some p, previous := (t.children p).getLast? } = value)
    (x : NodeId) :
    ((t.append p c).get? x).bind link =
      if t.canAppend p c ∧ x = c then value else (t.get? x).bind link := by
  by_cases h : t.canAppend p c
  · rw [bind_eq_join, map_get?_append hnext h, get?_modify]
    -- only `c` gets the link, and it is changed last
    by_cases hx : c = x
    · obtain ⟨-, -, hc, -⟩ := canAppend_iff.1 h
      subst hx
      have hsome : t.get? c = some t.nodes[c] := Array.getElem?_eq_getElem hc
      rw [if_pos rfl, if_pos ⟨h, rfl⟩, get?_modify, hsome]
      split <;> exact hvalue _
    · rw [if_neg hx, if_neg (fun hp => hx hp.2.symm), bind_eq_join]
      apply congrArg Option.join
      apply map_get?_modify
      exact fun n => hchildren n _
  · rw [append, if_neg h, if_neg (fun hp => h hp.1)]

/-- The child that is appended gets a parent, and no other node gets another one. -/
theorem parent?_append (t : Tree) (p c x : NodeId) :
    (t.append p c).parent? x = if t.canAppend p c ∧ x = c then some p else t.parent? x :=
  bind_get?_append (fun _ _ => rfl) (fun _ _ => rfl) (fun _ => rfl) x

/-- The sibling before the child that is appended is the last child so far. -/
theorem previous?_append (t : Tree) (p c x : NodeId) :
    (t.append p c).previous? x =
      if t.canAppend p c ∧ x = c then (t.children p).getLast? else t.previous? x :=
  bind_get?_append (fun _ _ => rfl) (fun _ _ => rfl) (fun _ => rfl) x

/-- The parent gets one more child, and no other node gets one. -/
theorem children_append (t : Tree) (p c x : NodeId) :
    (t.append p c).children x =
      if t.canAppend p c ∧ x = p then t.children x ++ [c] else t.children x := by
  by_cases h : t.canAppend p c
  · have hchild : ∀ n : Node, Node.children
        { n with parent := some p, previous := (t.children p).getLast? } = n.children :=
      fun _ => rfl
    rw [children, map_get?_append (fun _ _ => rfl) h, map_get?_modify hchild, get?_modify]
    by_cases hx : p = x
    · obtain ⟨-, hp, -, -⟩ := canAppend_iff.1 h
      subst hx
      have hsome : t.get? p = some t.nodes[p] := Array.getElem?_eq_getElem hp
      rw [if_pos rfl, if_pos ⟨h, rfl⟩, children, hsome]
      rfl
    · rw [if_neg hx, if_neg (fun hp => hx hp.2.symm)]
      rfl
  · rw [append, if_neg h, if_neg (fun hp => h hp.1)]

/-! ## Agreement of the links -/

/-- The trees that can be built: from the document alone, nodes are allocated and appended to each
other. -/
inductive Built : Tree → Prop
  | empty : Built .empty
  | alloc {t : Tree} (kind : NodeKind) : Built t → Built (t.alloc kind).1
  | append {t : Tree} (parent child : NodeId) : Built t → Built (t.append parent child)

/-- The two directions of a link agree, and index 0 is a document. -/
structure Linked (t : Tree) : Prop where
  mem_children_iff : ∀ p c : NodeId, c ∈ t.children p ↔ t.parent? c = some p
  root_is_document : (t.get? root).map Node.kind = some .document

namespace Linked

theorem size_pos (h : t.Linked) : 0 < t.size := by
  by_contra hsize
  have hnone : t.get? root = none := get?_eq_none (Nat.le_of_not_lt hsize)
  have hroot := h.root_is_document
  rw [hnone] at hroot
  exact absurd hroot (by simp)

/-- The document is no element. -/
theorem element?_root (h : t.Linked) : t.element? root = none := by
  rw [element?, h.root_is_document]

theorem empty : Tree.empty.Linked where
  mem_children_iff p c := by
    have hchildren : Tree.empty.children p = [] := by
      cases p with
      | zero => rfl
      | succ p => rw [children, get?_eq_none (Nat.le_add_left 1 p)]; rfl
    have hparent : Tree.empty.parent? c = none := by
      cases c with
      | zero => rfl
      | succ c => rw [parent?, get?_eq_none (Nat.le_add_left 1 c)]; rfl
    simp [hchildren, hparent]
  root_is_document := rfl

theorem alloc (h : t.Linked) (kind : NodeKind) : (t.alloc kind).1.Linked where
  mem_children_iff p c := by
    rw [children_alloc, parent?_alloc]
    exact h.mem_children_iff p c
  root_is_document := by
    have hroot : root ≠ t.size := Nat.ne_of_lt h.size_pos
    rw [get?_alloc, if_neg hroot]
    exact h.root_is_document

/-- A child that is appended had no parent, so no list of children held it before. -/
theorem append (h : t.Linked) (p c : NodeId) : (t.append p c).Linked where
  mem_children_iff q x := by
    rw [children_append, parent?_append]
    by_cases happend : t.canAppend p c
    · obtain ⟨-, -, -, hc⟩ := canAppend_iff.1 happend
      have hfree : ∀ q, c ∉ t.children q := by
        intro q hq
        rw [h.mem_children_iff, hc] at hq
        exact absurd hq (by simp)
      -- the link of `c` is new, and every other node stays where it was
      by_cases hx : x = c
      · subst hx
        by_cases hq : q = p
        · simp [happend, hq]
        · simp [happend, hq, hfree, Ne.symm hq]
      · have hold : x ∈ t.children q ++ [c] ↔ x ∈ t.children q := by simp [hx]
        rw [if_neg (fun hp : t.canAppend p c ∧ x = c => hx hp.2), ← h.mem_children_iff]
        split
        · exact hold
        · exact Iff.rfl
    · simp [happend, h.mem_children_iff]
  root_is_document := by
    rw [kind_append]
    exact h.root_is_document

end Linked

/-- In every tree that can be built, the links agree. -/
theorem Built.linked (h : t.Built) : t.Linked := by
  induction h with
  | empty => exact Linked.empty
  | alloc kind _ ih => exact ih.alloc kind
  | append parent child _ ih => exact ih.append parent child

theorem Built.appendNew (h : t.Built) (p : NodeId) (kind : NodeKind) :
    (t.appendNew p kind).1.Built :=
  .append p _ (.alloc kind h)

/-! ## Ancestors -/

/-- One node lies above another if a chain of parents leads to it. -/
inductive Above (t : Tree) : NodeId → NodeId → Prop
  | parent {p x : NodeId} : t.parent? x = some p → Above t p x
  | up {a p x : NodeId} : t.parent? x = some p → Above t a p → Above t a x

/-- What lies above a node is its parent, or lies above that. -/
theorem Above.eq_or_above (hp : t.parent? x = some p) (h : t.Above a x) : a = p ∨ t.Above a p := by
  cases h with
  | parent hp' => exact Or.inl (Option.some.inj (hp'.symm.trans hp))
  | up hp' h => exact Or.inr (Option.some.inj (hp'.symm.trans hp) ▸ h)

theorem Above.exists_parent (h : t.Above a x) : ∃ p, t.parent? x = some p := by
  cases h with
  | parent hp => exact ⟨_, hp⟩
  | up hp _ => exact ⟨_, hp⟩

theorem Above.trans {b : NodeId} (h : t.Above a b) (h' : t.Above b x) : t.Above a x := by
  induction h' with
  | parent hp => exact .up hp h
  | up hp _ ih => exact .up hp ih

theorem ancestors_eq_nil (hp : t.parent? x = none) : t.ancestors x = [] := by
  rw [ancestors]
  cases t.size with
  | zero => rfl
  | succ limit => rw [ancestorsWithin, hp]

end Tree

end BoxFlow
