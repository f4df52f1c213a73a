import BoxFlow.Proofs.Dom.Planting

/-!
# Search by levels

A tag is looked for level by level. The same search can be kept in a queue: the node in front is
looked at, and if it is not the one, its children wait behind all nodes that are there already
(`Tree.QueueSearch`). A queue that holds a level passes it node by node and then holds the next
level, so both ways come to the same answer (`Tree.queueSearch_findTagWithin`).

In the tree of a description the levels below a node are its subtree sorted by depth, each in
document order (`Tree.Planted.level_singleton`). So the search ends, for there are fewer levels than
nodes, and what it finds is the least deep node with the tag, and of those equally deep the first in
document order (`Spec.findTag?_breadth_first`).
-/

set_option autoImplicit false

namespace BoxFlow

namespace Tree

variable {t : Tree} {tag : String} {answer : Option NodeId} {id n p x : ℕ}
  {ids queue : List NodeId} {k limit : ℕ}

/-- Whether the node is an element of that tag, ASCII case ignored. -/
def hasTag (t : Tree) (tag : String) (id : NodeId) : Bool :=
  (t.tag? id).any (Text.sameIgnoringCase · tag)

theorem lt_size_of_hasTag (h : t.hasTag tag id) : id < t.size := by
  rw [hasTag, tag?, Option.any_map, Option.any_eq_true] at h
  obtain ⟨e, he, -⟩ := h
  exact lt_size_of_element? (Option.isSome_of_eq_some he)

theorem findTagWithin_succ (t : Tree) (tag : String) (limit : ℕ) (ids : List NodeId) :
    t.findTagWithin tag (limit + 1) ids =
      match ids.find? (t.hasTag tag) with
      | some id => some id
      | none =>
        match ids.flatMap t.children with
        | [] => none
        | below => t.findTagWithin tag limit below :=
  rfl

/-! ## A queue -/

/-- A search that keeps the nodes to look at in a queue ends with an answer. It looks at the node in
front, which is the answer if it has the tag; otherwise the children of the node go to the end of
the queue. There is no answer when the queue is empty. -/
inductive QueueSearch (t : Tree) (tag : String) : List NodeId → Option NodeId → Prop
  | exhausted : QueueSearch t tag [] none
  | found {id : NodeId} {queue : List NodeId} : t.hasTag tag id →
      QueueSearch t tag (id :: queue) (some id)
  | next {id : NodeId} {queue : List NodeId} {answer : Option NodeId} : ¬ t.hasTag tag id →
      QueueSearch t tag (queue ++ t.children id) answer → QueueSearch t tag (id :: queue) answer

namespace QueueSearch

/-- A queue leads to one answer at most. -/
theorem unique {answer' : Option NodeId} (h : t.QueueSearch tag queue answer)
    (h' : t.QueueSearch tag queue answer') : answer = answer' := by
  induction h with
  | exhausted => cases h'; rfl
  | found htag =>
    cases h' with
    | found => rfl
    | next hno _ => exact absurd htag hno
  | next hno _ ih =>
    cases h' with
    | found htag => exact absurd htag hno
    | next _ h' => exact ih h'

/-- A level without the tag is passed, and its children then wait behind what waited before. -/
theorem pass (queue : List NodeId) (hno : ∀ id ∈ ids, ¬ t.hasTag tag id)
    (h : t.QueueSearch tag (queue ++ ids.flatMap t.children) answer) :
    t.QueueSearch tag (ids ++ queue) answer := by
  induction ids generalizing queue with
  | nil => rwa [List.flatMap_nil, List.append_nil] at h
  | cons id ids ih =>
    rw [List.flatMap_cons, ← List.append_assoc] at h
    apply QueueSearch.next (hno id List.mem_cons_self)
    rw [List.append_eq, List.append_assoc]
    exact ih _ (fun x hx => hno x (List.mem_cons_of_mem id hx)) h

/-- In a level with the tag the first node of it is found, whatever waits behind. -/
theorem of_find? (queue : List NodeId) (h : ids.find? (t.hasTag tag) = some x) :
    t.QueueSearch tag (ids ++ queue) (some x) := by
  induction ids generalizing queue with
  | nil => cases h
  | cons id ids ih =>
    by_cases htag : t.hasTag tag id
    · rw [List.find?_cons_of_pos htag] at h
      obtain rfl := Option.some.inj h
      exact .found htag
    · rw [List.find?_cons_of_neg htag] at h
      apply QueueSearch.next htag
      rw [List.append_eq, List.append_assoc]
      exact ih _ h

end QueueSearch

/-! ## Levels -/

/-- The nodes that are `k` levels below some nodes. -/
def level (t : Tree) : ℕ → List NodeId → List NodeId
  | 0, ids => ids
  | k + 1, ids => level t k (ids.flatMap t.children)

theorem level_nil (t : Tree) (k : ℕ) : t.level k [] = [] := by
  induction k with
  | zero => rfl
  | succ k ih => exact ih

/-- What is below some nodes is what is below the one, and then what is below the others. -/
theorem level_eq_flatMap (t : Tree) (k : ℕ) (ids : List NodeId) :
    t.level k ids = ids.flatMap fun id => t.level k [id] := by
  induction k generalizing ids with
  | zero => exact List.flatMap_singleton' ids |>.symm
  | succ k ih =>
    calc t.level (k + 1) ids
      _ = (ids.flatMap t.children).flatMap fun c => t.level k [c] := ih _
      _ = ids.flatMap fun id => (t.children id).flatMap fun c => t.level k [c] :=
        List.flatMap_assoc
      _ = ids.flatMap fun id => t.level (k + 1) [id] := by
        apply List.flatMap_congr
        intro id _
        rw [level, List.flatMap_singleton]
        exact (ih _).symm

/-- The search by levels has a node of the first level that holds the tag, and there the first. -/
theorem exists_level_of_findTagWithin (h : t.findTagWithin tag limit ids = some x) :
    ∃ k, (t.level k ids).find? (t.hasTag tag) = some x ∧
      ∀ j < k, ∀ n ∈ t.level j ids, ¬ t.hasTag tag n := by
  induction limit generalizing ids with
  | zero => cases h
  | succ limit ih =>
    rw [findTagWithin_succ] at h
    split at h
    · next y hfind => exact ⟨0, hfind.trans h, fun j hj => absurd hj (Nat.not_lt_zero j)⟩
    · next hfind =>
      have hno : ∀ n ∈ ids, ¬ t.hasTag tag n :=
        List.find?_eq_none.1 hfind
      split at h
      · cases h
      · obtain ⟨k, hx, hbefore⟩ := ih h
        refine ⟨k + 1, hx, fun j hj => ?_⟩
        cases j with
        | zero => exact hno
        | succ j => exact hbefore j (Nat.lt_of_succ_lt_succ hj)

/-- A search without an answer has seen all levels within its limit. -/
theorem not_hasTag_of_findTagWithin (h : t.findTagWithin tag limit ids = none) (hk : k < limit) :
    ∀ n ∈ t.level k ids, ¬ t.hasTag tag n := by
  induction limit generalizing k ids with
  | zero => exact absurd hk (Nat.not_lt_zero k)
  | succ limit ih =>
    rw [findTagWithin_succ] at h
    split at h
    · cases h
    · next hfind =>
      cases k with
      | zero => exact List.find?_eq_none.1 hfind
      | succ k =>
        split at h
        · next hbelow =>
          rw [level, hbelow, level_nil]
          exact List.forall_mem_nil _
        · rw [level]
          exact ih h (Nat.lt_of_succ_lt_succ hk)

/-- Where the limit reaches below the last level, a queue comes to the answer of the search by
levels. -/
theorem queueSearch_findTagWithin (h : t.level limit ids = []) :
    t.QueueSearch tag ids (t.findTagWithin tag limit ids) := by
  induction limit generalizing ids with
  | zero =>
    obtain rfl : ids = [] := h
    exact .exhausted
  | succ limit ih =>
    rw [findTagWithin_succ]
    split
    · next hfind => exact List.append_nil ids ▸ QueueSearch.of_find? [] hfind
    · next hfind =>
      -- the whole level is passed, so the queue then holds what is below it
      have hpass : ∀ answer, t.QueueSearch tag (ids.flatMap t.children) answer →
          t.QueueSearch tag ids answer :=
        fun _ h => List.append_nil ids ▸ QueueSearch.pass [] (List.find?_eq_none.1 hfind) h
      apply hpass
      split
      · next hnone =>
        rw [hnone]
        exact .exhausted
      · exact ih h

/-! ## Depth -/

/-- No node is deeper than its index, since the nodes above it have smaller ones. -/
theorem Ordered.depth_le (h : t.Ordered) (x : NodeId) : t.depth x ≤ x := by
  induction x using Nat.strongRecOn with
  | ind x ih =>
    cases hp : t.parent? x with
    | none =>
      rw [depth, ancestors_eq_nil hp]
      exact Nat.zero_le x
    | some p =>
      have hlt := h.parent_lt hp
      rw [h.depth_of_parent? hp]
      exact Nat.lt_of_le_of_lt (ih p hlt) hlt

/-- There are fewer levels than nodes. -/
theorem Ordered.depth_lt_size (h : t.Ordered) (x : NodeId) : t.depth x < t.size := by
  cases hp : t.parent? x with
  | none =>
    rw [depth, ancestors_eq_nil hp]
    exact h.linked.size_pos
  | some p => exact Nat.lt_of_le_of_lt (h.depth_le x) (lt_size_of_parent? hp)

namespace Planted

theorem depth_le_of_mem_subtree (h : t.Planted) :
    ∀ {id n : NodeId}, n ∈ t.subtree id → t.depth id ≤ t.depth n := by
  intro id
  induction id using h.induction with
  | _ id ih =>
    intro n hn
    rcases h.mem_subtree_iff.1 hn with rfl | ⟨c, hc, hn⟩
    · exact Nat.le_refl _
    · have hdepth := h.ordered.depth_of_mem_children hc
      have hbelow := ih c hc hn
      omega

/-- A level below a node is what its subtree has of that depth, in document order. -/
theorem level_singleton (h : t.Planted) (k : ℕ) (id : NodeId) :
    t.level k [id] = (t.subtree id).filter fun n => t.depth n = t.depth id + k := by
  induction k generalizing id with
  | zero =>
    -- everything below the node is deeper than it
    rw [h.subtree_eq, List.filter_cons_of_pos (by simp), List.filter_eq_nil_iff.2]
    · rfl
    · intro n hn heq
      obtain ⟨c, hc, hn⟩ := List.mem_flatMap.1 hn
      have hdepth := h.ordered.depth_of_mem_children hc
      have hbelow := h.depth_le_of_mem_subtree hn
      have heq : t.depth n = t.depth id + 0 := of_decide_eq_true heq
      omega
  | succ k ih =>
    rw [level, List.flatMap_singleton, level_eq_flatMap, h.subtree_eq,
      List.filter_cons_of_neg (by simp), List.filter_flatMap]
    apply List.flatMap_congr
    intro c hc
    rw [ih, h.ordered.depth_of_mem_children hc]
    simp only [Nat.add_assoc, Nat.add_comm 1 k]

theorem mem_level_singleton (h : t.Planted) :
    n ∈ t.level k [id] ↔ n ∈ t.subtree id ∧ t.depth n = t.depth id + k := by
  rw [h.level_singleton, List.mem_filter, decide_eq_true_iff]

theorem exists_mem_level (h : t.Planted) (hn : n ∈ t.subtree id) :
    ∃ k < t.size, n ∈ t.level k [id] := by
  obtain ⟨k, hk⟩ := Nat.exists_eq_add_of_le (h.depth_le_of_mem_subtree hn)
  have hlt := h.ordered.depth_lt_size n
  exact ⟨k, by omega, h.mem_level_singleton.2 ⟨hn, hk⟩⟩

/-- No level is as far down as there are nodes. -/
theorem level_size (h : t.Planted) (id : NodeId) : t.level t.size [id] = [] := by
  rw [List.eq_nil_iff_forall_not_mem]
  intro n hn
  obtain ⟨-, hdepth⟩ := h.mem_level_singleton.1 hn
  have hlt := h.ordered.depth_lt_size n
  omega

end Planted

/-! ## What is found -/

/-- Of the nodes at and below `start` with the tag it is the least deep, and of those equally deep
the first in document order. -/
structure IsNearest (t : Tree) (start : NodeId) (tag : String) (id : NodeId) : Prop where
  hasTag : t.hasTag tag id
  place : ∃ front back, t.subtree start = front ++ id :: back ∧
    (∀ n ∈ front, t.hasTag tag n → t.depth id < t.depth n) ∧
    ∀ n ∈ back, t.hasTag tag n → t.depth id ≤ t.depth n

/-- Of two nodes that stand in a list one is in front of the other. -/
theorem cases_of_append_cons_eq {y : NodeId} {front back front' back' : List NodeId}
    (h : front ++ x :: back = front' ++ y :: back') :
    x = y ∨ y ∈ front ∧ x ∈ back' ∨ x ∈ front' ∧ y ∈ back := by
  rcases List.append_eq_append_iff.1 h with ⟨between, rfl, heq⟩ | ⟨between, rfl, heq⟩
  · cases between with
    | nil => exact Or.inl (List.cons.inj heq).1
    | cons z between =>
      obtain ⟨rfl, rfl⟩ := List.cons.inj heq
      exact Or.inr (Or.inr (by simp))
  · cases between with
    | nil => exact Or.inl (List.cons.inj heq).1.symm
    | cons z between =>
      obtain ⟨rfl, rfl⟩ := List.cons.inj heq
      exact Or.inr (Or.inl (by simp))

/-- Two nodes cannot both be the nearest one. -/
theorem IsNearest.unique {start y : ℕ} (hx : t.IsNearest start tag x)
    (hy : t.IsNearest start tag y) : x = y := by
  obtain ⟨htag, front, back, hsubtree, hfront, hback⟩ := hx
  obtain ⟨htag', front', back', hsubtree', hfront', hback'⟩ := hy
  rcases cases_of_append_cons_eq (hsubtree.symm.trans hsubtree') with heq | ⟨hy, hx⟩ | ⟨hx, hy⟩
  · exact heq
  · exact absurd (hfront y hy htag') (Nat.not_lt_of_le (hback' x hx htag))
  · exact absurd (hfront' x hx htag) (Nat.not_lt_of_le (hback y hy htag'))

namespace Planted

variable {start : ℕ}

theorem isNearest_of_findTag? (h : t.Planted) (hx : t.findTag? start tag = some x) :
    t.IsNearest start tag x := by
  obtain ⟨k, hfind, hbefore⟩ := exists_level_of_findTagWithin hx
  -- no node with the tag is less deep than the level where the search ends
  have hdeep : ∀ n ∈ t.subtree start, t.hasTag tag n → t.depth start + k ≤ t.depth n := by
    intro n hn htag
    obtain ⟨j, hj⟩ := Nat.exists_eq_add_of_le (h.depth_le_of_mem_subtree hn)
    have hjk : ¬ j < k := fun hlt => hbefore j hlt n (h.mem_level_singleton.2 ⟨hn, hj⟩) htag
    omega
  have hdepth : t.depth x = t.depth start + k :=
    (h.mem_level_singleton.1 (List.mem_of_find?_eq_some hfind)).2
  have htag : t.hasTag tag x := List.find?_some hfind
  rw [h.level_singleton, List.find?_filter, List.find?_eq_some_iff_append] at hfind
  obtain ⟨-, front, back, hsubtree, hfront⟩ := hfind
  rw [← hdepth] at hdeep hfront
  refine ⟨htag, front, back, hsubtree, ?_, ?_⟩
  · intro n hn htag
    have hle := hdeep n (hsubtree ▸ List.mem_append_left _ hn) htag
    have hne : t.depth n ≠ t.depth x := by
      intro heq
      have hno := hfront n hn
      rw [htag] at hno
      simp [heq] at hno
    omega
  · intro n hn htag
    exact hdeep n (hsubtree ▸ List.mem_append_right _ (List.mem_cons_of_mem x hn)) htag

theorem findTag?_eq_none_iff (h : t.Planted) :
    t.findTag? start tag = none ↔ ∀ n ∈ t.subtree start, ¬ t.hasTag tag n := by
  constructor
  · intro hnone n hn
    obtain ⟨k, hk, hlevel⟩ := h.exists_mem_level hn
    exact not_hasTag_of_findTagWithin hnone hk n hlevel
  · intro hno
    rw [Option.eq_none_iff_forall_ne_some]
    intro x hx
    obtain ⟨htag, front, back, hsubtree, -⟩ := h.isNearest_of_findTag? hx
    exact hno x (hsubtree ▸ List.mem_append_right _ List.mem_cons_self) htag

/-- A node that is found lies in front of every other node with the tag or above its level. -/
theorem findTag?_eq_some_iff (h : t.Planted) :
    t.findTag? start tag = some x ↔ t.IsNearest start tag x := by
  refine ⟨h.isNearest_of_findTag?, fun hx => ?_⟩
  cases hy : t.findTag? start tag with
  | none =>
    obtain ⟨htag, front, back, hsubtree, -⟩ := hx
    exact absurd htag (h.findTag?_eq_none_iff.1 hy x
      (hsubtree ▸ List.mem_append_right _ List.mem_cons_self))
  | some y => rw [(h.isNearest_of_findTag? hy).unique hx]

end Planted

end Tree

namespace Spec

/-- If some element of the tree has the tag, one is found from the document that is less deep, or as
deep and not behind it in document order. -/
theorem exists_found_from_root (spec : Spec) {tag : String} {n : ℕ}
    (hn : spec.toTree.hasTag tag n) :
    ∃ found, spec.toTree.findTag? Tree.root tag = some found ∧
      (spec.toTree.depth found < spec.toTree.depth n ∨
        spec.toTree.depth found = spec.toTree.depth n ∧ found ≤ n) := by
  have hplanted := spec.planted_toTree
  have hmem : n ∈ spec.toTree.subtree Tree.root := by
    rw [spec.subtree_root_toTree]
    exact List.mem_range.2 (Tree.lt_size_of_hasTag hn)
  cases hfound : spec.toTree.findTag? Tree.root tag with
  | none => exact absurd hn (hplanted.findTag?_eq_none_iff.1 hfound n hmem)
  | some found =>
    obtain ⟨-, front, back, hsubtree, hfront, hback⟩ := hplanted.findTag?_eq_some_iff.1 hfound
    refine ⟨found, rfl, ?_⟩
    rw [hsubtree] at hmem
    rcases List.mem_append.1 hmem with hmem | hmem
    · exact Or.inl (hfront n hmem hn)
    · rcases List.mem_cons.1 hmem with rfl | hmem
      · exact Or.inr ⟨rfl, Nat.le_refl n⟩
      · -- document order from the document on is the order of indices
        have hordered : (front ++ found :: back).Pairwise (· < ·) := by
          rw [← hsubtree, spec.subtree_root_toTree]
          exact List.pairwise_lt_range
        have hlt : found < n := List.rel_of_pairwise_cons (List.pairwise_append.1 hordered).2.1 hmem
        rcases Nat.lt_or_eq_of_le (hback n hmem hn) with hdepth | hdepth
        · exact Or.inl hdepth
        · exact Or.inr ⟨hdepth, Nat.le_of_lt hlt⟩

/-- Looking for a tag in the tree of a description is a breadth-first search. The search with a
queue that starts with a node ends with one answer, and that is what is found. It is none exactly if
no node at or below the start has the tag, and a node exactly if it is the least deep one with the
tag and of those equally deep the first in document order. So an element of the tree that is a body
is neither less deep than the body of the page, nor as deep and in front of it, and the same holds
of heads. -/
theorem findTag?_breadth_first (spec : Spec) :
    let t := spec.toTree
    (∀ start tag,
      (∀ answer, t.QueueSearch tag [start] answer ↔ answer = t.findTag? start tag) ∧
      (t.findTag? start tag = none ↔ ∀ n ∈ t.subtree start, ¬ t.hasTag tag n) ∧
      ∀ found, t.findTag? start tag = some found ↔ t.IsNearest start tag found) ∧
    (∀ n, t.hasTag "body" n → ∃ body, t.body? = some body ∧
      (t.depth body < t.depth n ∨ t.depth body = t.depth n ∧ body ≤ n)) ∧
    ∀ n, t.hasTag "head" n → ∃ head, t.head? = some head ∧
      (t.depth head < t.depth n ∨ t.depth head = t.depth n ∧ head ≤ n) := by
  intro t
  have hplanted : t.Planted := spec.planted_toTree
  refine ⟨fun start tag => ⟨fun answer => ?_, hplanted.findTag?_eq_none_iff,
    fun found => hplanted.findTag?_eq_some_iff⟩, fun n => spec.exists_found_from_root,
    fun n => spec.exists_found_from_root⟩
  have hfound : t.QueueSearch tag [start] (t.findTag? start tag) :=
    Tree.queueSearch_findTagWithin (hplanted.level_size start)
  constructor
  · intro hanswer
    exact hanswer.unique hfound
  · rintro rfl
    exact hfound

/-- A head that stands in front but deeper is passed over. -/
example :
    (Spec.element "html" []
      [.element "div" [] [.element "HEAD" [] []], .text "a", .element "Head" [] []]).toTree.head? =
      some 5 := by
  decide

end Spec

end BoxFlow
