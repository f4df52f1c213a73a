import BoxFlow.Proofs.Dom.Loops

/-!
# Walks down that end

The walk down from a node stops after as many levels as there are nodes, in any tree. It needs that
only if the node lies below itself. Otherwise nothing below the node does
(`Tree.not_above_self_of_parent`), so the nodes passed on the way down are all different and come to
an end by themselves. Then the walk is what it is without a limit: a subtree is its root and the
subtrees of the children (`Tree.subtree_eq_of_not_above_self`), and it meets exactly the node and
what lies below it (`Tree.mem_subtree_iff_above`). So it is with the texts that are read on the way
(`Tree.hasTextBelow_eq_of_not_above_self`). The trees may have been built in any way.
-/

set_option autoImplicit false

namespace BoxFlow

namespace Tree

variable {t : Tree} {c id n p x : NodeId} {limit : ℕ} {path : List NodeId}

/-- What lies below a node is a child of it, or lies below a child. -/
theorem Above.iff_exists_child :
    t.Above id n ↔ ∃ c, t.parent? c = some id ∧ (n = c ∨ t.Above c n) := by
  constructor
  · intro h
    induction h with
    | parent hp => exact ⟨_, hp, .inl rfl⟩
    | up hp _ ih =>
      obtain ⟨c, hc, rfl | habove⟩ := ih
      · exact ⟨_, hc, .inr (.parent hp)⟩
      · exact ⟨c, hc, .inr (.up hp habove)⟩
  · rintro ⟨c, hc, rfl | habove⟩
    · exact .parent hc
    · exact (Above.parent hc).trans habove

/-! ## Where the limit is not met -/

/-- What lies below a node that is not below itself is not below itself either. -/
theorem not_above_self_of_parent (h : ¬ t.Above p p) (hc : t.parent? c = some p) :
    ¬ t.Above c c := by
  intro hloop
  rcases hloop.eq_or_above hc with rfl | habove
  · exact h (.parent hc)
  · exact h ((Above.parent hc).trans habove)

/-- The nodes passed on the way down to a node, and the node, are not more than there are. -/
theorem length_lt_size_of_path (ht : t.Linked) (h : ¬ t.Above x x) (hx : x < t.size)
    (hpath : ∀ a ∈ path, t.Above a x) (hnodup : path.Nodup) : path.length < t.size := by
  have hnew : x ∉ path := fun hmem => h (hpath x hmem)
  refine length_le_size_of_nodup (List.nodup_cons.2 ⟨hnew, hnodup⟩) ?_
  intro a ha
  rcases List.mem_cons.1 ha with rfl | ha
  · exact hx
  · exact ht.lt_size_of_above (hpath a ha)

/-- A limit that is enough for the nodes that have not been passed is not met, so one more level
adds nothing. -/
theorem subtreeWithin_succ (ht : t.Linked) (h : ¬ t.Above x x) (hx : x < t.size)
    (hpath : ∀ a ∈ path, t.Above a x) (hnodup : path.Nodup)
    (hlimit : t.size ≤ limit + path.length) :
    t.subtreeWithin (limit + 1) x = t.subtreeWithin limit x := by
  induction limit generalizing x path with
  | zero =>
    have hlt := length_lt_size_of_path ht h hx hpath hnodup
    omega
  | succ limit ih =>
    rw [subtreeWithin, subtreeWithin]
    congr 1
    apply List.flatMap_congr
    intro c hc
    have hparent := (ht.mem_children_iff x c).1 hc
    -- on the way to the child, the node has been passed as well
    have hpath' : ∀ a ∈ x :: path, t.Above a c := by
      intro a ha
      rcases List.mem_cons.1 ha with rfl | ha
      · exact .parent hparent
      · exact .up hparent (hpath a ha)
    have hnew : x ∉ path := fun hmem => h (hpath x hmem)
    refine ih (not_above_self_of_parent h hparent) (lt_size_of_parent? hparent) hpath'
      (List.nodup_cons.2 ⟨hnew, hnodup⟩) ?_
    rw [List.length_cons]
    omega

/-! ## Subtrees -/

/-- A subtree is its root and the subtrees of the children. -/
theorem subtree_eq_of_not_above_self (ht : t.Linked) (h : ¬ t.Above id id) :
    t.subtree id = id :: (t.children id).flatMap t.subtree := by
  obtain ⟨limit, hsize⟩ := Nat.exists_eq_succ_of_ne_zero (Nat.ne_of_gt ht.size_pos)
  rw [subtree, hsize, subtreeWithin]
  congr 1
  apply List.flatMap_congr
  intro c hc
  have hparent := (ht.mem_children_iff id c).1 hc
  have hpath : ∀ a ∈ [id], t.Above a c := by
    intro a ha
    rw [List.mem_singleton.1 ha]
    exact .parent hparent
  rw [subtree, hsize]
  exact (subtreeWithin_succ ht (not_above_self_of_parent h hparent) (lt_size_of_parent? hparent)
    hpath (List.nodup_singleton id) (Nat.le_of_eq hsize)).symm

theorem eq_or_above_of_mem_subtreeWithin (ht : t.Linked) (h : n ∈ t.subtreeWithin limit id) :
    n = id ∨ t.Above id n := by
  induction limit generalizing id with
  | zero => exact absurd h List.not_mem_nil
  | succ limit ih =>
    rw [subtreeWithin, List.mem_cons, List.mem_flatMap] at h
    obtain rfl | ⟨c, hc, hn⟩ := h
    · exact .inl rfl
    · have hparent := (ht.mem_children_iff id c).1 hc
      rcases ih hn with rfl | habove
      · exact .inr (.parent hparent)
      · exact .inr ((Above.parent hparent).trans habove)

/-- The child of a node that is met is met one level later. -/
theorem mem_subtreeWithin_succ_of_child (hp : p ∈ t.subtreeWithin limit id)
    (hc : c ∈ t.children p) : c ∈ t.subtreeWithin (limit + 1) id := by
  induction limit generalizing id with
  | zero => exact absurd hp List.not_mem_nil
  | succ limit ih =>
    rw [subtreeWithin, List.mem_cons, List.mem_flatMap] at hp
    rw [subtreeWithin, List.mem_cons, List.mem_flatMap]
    obtain rfl | ⟨c', hc', hp⟩ := hp
    · refine .inr ⟨c, hc, ?_⟩
      rw [subtreeWithin]
      exact List.mem_cons_self
    · exact .inr ⟨c', hc', ih hp⟩

/-- A subtree holds its root and everything below it. -/
theorem mem_subtree_iff_above (ht : t.Linked) (h : ¬ t.Above id id) (hid : id < t.size) :
    n ∈ t.subtree id ↔ n = id ∨ t.Above id n := by
  have hpath : ∀ a ∈ ([] : List NodeId), t.Above a id := fun _ ha => absurd ha List.not_mem_nil
  have hlevel : t.subtreeWithin (t.size + 1) id = t.subtree id :=
    subtreeWithin_succ ht h hid hpath List.nodup_nil (Nat.le_refl _)
  have hself : id ∈ t.subtree id := by
    rw [subtree_eq_of_not_above_self ht h]
    exact List.mem_cons_self
  have hchild : ∀ p c, p ∈ t.subtree id → t.parent? c = some p → c ∈ t.subtree id := by
    intro p c hp hc
    rw [← hlevel]
    exact mem_subtreeWithin_succ_of_child hp ((ht.mem_children_iff p c).2 hc)
  constructor
  · exact eq_or_above_of_mem_subtreeWithin ht
  · rintro (rfl | habove)
    · exact hself
    · induction habove with
      | parent hp => exact hchild _ _ hself hp
      | up hp _ ih => exact hchild _ _ ih hp

/-! ## Texts -/

/-- The text of a node is its own and that of its children, one after the other. -/
theorem textContent_eq_of_not_above_self (ht : t.Linked) (h : ¬ t.Above id id) :
    (t.textContent id).toList = ((t.text? id).getD "").toList ++
      (t.children id).flatMap fun c => (t.textContent c).toList := by
  simp only [textContent, String.toList_ofList]
  rw [subtree_eq_of_not_above_self ht h, List.flatMap_cons, List.flatMap_assoc]

/-- There is text below a node if a child is one that is not empty, or has text below it. -/
theorem hasTextBelow_eq_of_not_above_self (ht : t.Linked) (h : ¬ t.Above id id) :
    t.hasTextBelow id = (t.children id).any fun c =>
      (t.text? c).any (· != "") || t.hasTextBelow c := by
  rw [hasTextBelow, List.any_flatMap, Bool.eq_iff_iff, List.any_eq_true, List.any_eq_true]
  refine exists_congr fun c => and_congr_right fun hc => ?_
  have hparent := (ht.mem_children_iff id c).1 hc
  rw [subtree_eq_of_not_above_self ht (not_above_self_of_parent h hparent), List.any_cons]
  rfl

/-- So there is if some text below the node is not empty. -/
theorem hasTextBelow_iff_above (ht : t.Linked) (h : ¬ t.Above id id) :
    t.hasTextBelow id = true ↔ ∃ n text, t.Above id n ∧ t.text? n = some text ∧ text ≠ "" := by
  have hbelow : ∀ n, n ∈ (t.children id).flatMap t.subtree ↔ t.Above id n := by
    intro n
    rw [List.mem_flatMap, Above.iff_exists_child]
    refine exists_congr fun c => ?_
    rw [ht.mem_children_iff]
    refine and_congr_right fun hc => ?_
    exact mem_subtree_iff_above ht (not_above_self_of_parent h hc) (lt_size_of_parent? hc)
  rw [hasTextBelow, List.any_eq_true]
  refine exists_congr fun n => ?_
  rw [hbelow, Option.any_eq_true, exists_and_left]
  simp only [bne_iff_ne]

end Tree

end BoxFlow
