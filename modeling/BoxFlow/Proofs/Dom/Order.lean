import BoxFlow.Dom.Spec
import BoxFlow.Proofs.Dom.Links

/-!
# Trees that grow at their ends

Where every node is attached as soon as it is allocated, parents have smaller indices than their
children (`Tree.Ordered`). So it is with trees that come from a description, and with those to which
nodes are appended one after the other (`Tree.Grown.ordered`). In such a tree the walk up from a
node ends at a node without a parent, and a child is one level below its parent
(`Tree.Ordered.depth_of_parent?`).
-/

set_option autoImplicit false

namespace BoxFlow

namespace Tree

variable {t : Tree} {a c p x : ℕ}

/-- Nodes are linked to nodes in front of them only. -/
structure Ordered (t : Tree) : Prop where
  linked : t.Linked
  parent_lt : ∀ {c p : ℕ}, t.parent? c = some p → p < c

/-- The trees that come from a description, or from the document alone, by appending new nodes of
any kind to any node. -/
inductive Grown : Tree → Prop
  | described (spec : Spec) : Grown spec.toTree
  | empty : Grown .empty
  | appendNew {t : Tree} (parent : NodeId) (kind : NodeKind) : Grown t →
      Grown (t.appendNew parent kind).1

namespace Ordered

theorem empty : Tree.empty.Ordered where
  linked := .empty
  parent_lt := by
    intro c p hp
    have hc : c < 1 := lt_size_of_parent? hp
    obtain rfl : c = 0 := Nat.lt_one_iff.1 hc
    exact absurd hp.symm (Option.some_ne_none p)

/-- A new node comes last, and so after the node that it is attached to. -/
theorem appendNew (h : t.Ordered) (p : NodeId) (kind : NodeKind) :
    (t.appendNew p kind).1.Ordered where
  linked := (h.linked.alloc kind).append p t.size
  parent_lt := by
    intro c q hq
    rw [Tree.appendNew, parent?_append, parent?_alloc] at hq
    split at hq
    · next hnew =>
      obtain ⟨hcan, rfl⟩ := hnew
      obtain rfl := Option.some.inj hq
      have hsize : (t.alloc kind).1.size = t.size + 1 := Array.size_push _
      obtain ⟨hne, hlt, -, -⟩ := canAppend_iff.1 hcan
      rw [hsize] at hlt
      exact Nat.lt_of_le_of_ne (Nat.le_of_lt_succ hlt) hne
    · exact h.parent_lt hq

end Ordered

end Tree

namespace Spec

mutual

/-- Planting a description appends new nodes only. -/
theorem ordered_plant {t : Tree} (h : t.Ordered) (p : NodeId) :
    ∀ spec : Spec, (plant t p spec).Ordered
  | .text content => h.appendNew p (.text content)
  | .comment content => h.appendNew p (.comment content)
  | .element _ _ children => ordered_plantAll (h.appendNew p _) _ children

theorem ordered_plantAll {t : Tree} (h : t.Ordered) (p : NodeId) :
    ∀ specs : List Spec, (plantAll t p specs).Ordered
  | [] => h
  | spec :: specs => ordered_plantAll (ordered_plant h p spec) p specs

end

end Spec

namespace Tree

variable {t : Tree} {a c p x : ℕ}

theorem Grown.ordered (h : t.Grown) : t.Ordered := by
  induction h with
  | described spec => exact spec.ordered_plant .empty root
  | empty => exact .empty
  | appendNew parent kind _ ih => exact ih.appendNew parent kind

namespace Ordered

/-- What lies above a node comes before it. -/
theorem lt_of_above (h : t.Ordered) (ha : t.Above a x) : a < x := by
  induction ha with
  | parent hp => exact h.parent_lt hp
  | up hp _ ih => exact Nat.lt_trans ih (h.parent_lt hp)

theorem parent?_root (h : t.Ordered) : t.parent? root = none := by
  cases hp : t.parent? root with
  | none => rfl
  | some p => exact absurd (h.parent_lt hp) (Nat.not_lt_zero p)

/-! ## Depth -/

/-- A walk up that is long enough for the indices left does not change with one more step. -/
theorem ancestorsWithin_succ (h : t.Ordered) {limit : ℕ} (hx : x ≤ limit) :
    t.ancestorsWithin (limit + 1) x = t.ancestorsWithin limit x := by
  induction limit generalizing x with
  | zero =>
    obtain rfl : x = root := Nat.le_zero.1 hx
    rw [ancestorsWithin, ancestorsWithin, h.parent?_root]
  | succ limit ih =>
    rw [ancestorsWithin, ancestorsWithin]
    cases hp : t.parent? x with
    | none => rfl
    | some p =>
      have hlt := h.parent_lt hp
      simp only [ih (x := p) (by omega)]

theorem ancestors_eq (h : t.Ordered) (hp : t.parent? c = some p) :
    t.ancestors c = p :: t.ancestors p := by
  obtain ⟨limit, hsize⟩ := Nat.exists_eq_succ_of_ne_zero (Nat.ne_of_gt h.linked.size_pos)
  have hlt := h.parent_lt hp
  have hc : c < t.size := lt_size_of_parent? hp
  rw [ancestors, hsize, ancestorsWithin, hp, ancestors, hsize,
    h.ancestorsWithin_succ (x := p) (by omega)]

theorem depth_root (h : t.Ordered) : t.depth root = 0 := by
  rw [depth, ancestors_eq_nil h.parent?_root, List.length_nil]

/-- A child is one level below its parent. -/
theorem depth_of_parent? (h : t.Ordered) (hp : t.parent? c = some p) :
    t.depth c = t.depth p + 1 := by
  rw [depth, h.ancestors_eq hp, List.length_cons, depth]

theorem depth_of_mem_children (h : t.Ordered) (hc : c ∈ t.children p) :
    t.depth c = t.depth p + 1 :=
  h.depth_of_parent? ((h.linked.mem_children_iff p c).1 hc)

end Ordered

end Tree

end BoxFlow
