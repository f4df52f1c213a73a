import BoxFlow.Proofs.Dom.History
import Mathlib.Data.List.Perm.Subperm

/-!
# Walks up that end

Appending accepts every known child that has no parent yet, also the document, and also a node that
lies above its new parent. So a history can close a loop, and a walk up that enters it never ends
(`Tree.document_in_loop`). This module says exactly when that happens: every walk up ends, with the
document at the top, after those histories of which each edit is safe (`Tree.walks_end_iff`). An
edit is safe if it does not attach the document and attaches no node below itself; everything but an
append to a node is, since a new node has nothing below it.

One edit is decided in `Tree.rooted_edit_iff`, in both directions, because an edit never takes a
link away: what is not rooted once never will be.
-/

set_option autoImplicit false

namespace BoxFlow

namespace Tree

variable {t t' : Tree} {a c p x : NodeId} {as bs : List NodeId}

/-! ## Walks up -/

/-- The walk up from a node passes these nodes and ends after the last. -/
inductive WalksUp (t : Tree) : NodeId → List NodeId → Prop
  | top {x : NodeId} : t.parent? x = none → WalksUp t x []
  | step {p x : NodeId} {as : List NodeId} : t.parent? x = some p → WalksUp t p as →
      WalksUp t x (p :: as)

namespace WalksUp

theorem eq_nil (h : t.WalksUp x as) (hp : t.parent? x = none) : as = [] := by
  cases h with
  | top => rfl
  | step hp' _ =>
    rw [hp] at hp'
    cases hp'

theorem exists_tail (h : t.WalksUp x as) (hp : t.parent? x = some p) :
    ∃ bs, as = p :: bs ∧ t.WalksUp p bs := by
  cases h with
  | top hp' =>
    rw [hp] at hp'
    cases hp'
  | step hp' h =>
    obtain rfl := Option.some.inj (hp.symm.trans hp')
    exact ⟨_, rfl, h⟩

theorem unique (h : t.WalksUp x as) (h' : t.WalksUp x bs) : as = bs := by
  induction h generalizing bs with
  | top hp => exact (h'.eq_nil hp).symm
  | step hp _ ih =>
    obtain ⟨bs, rfl, htail⟩ := h'.exists_tail hp
    rw [ih htail]

/-- From a node above, the walk is shorter. -/
theorem exists_shorter (ha : t.Above a x) (h : t.WalksUp x as) :
    ∃ bs, t.WalksUp a bs ∧ bs.length < as.length := by
  induction ha generalizing as with
  | parent hp =>
    obtain ⟨bs, rfl, htail⟩ := h.exists_tail hp
    exact ⟨bs, htail, Nat.lt_succ_self _⟩
  | up hp _ ih =>
    obtain ⟨bs, rfl, htail⟩ := h.exists_tail hp
    obtain ⟨cs, hcs, hlt⟩ := ih htail
    exact ⟨cs, hcs, Nat.lt_succ_of_lt hlt⟩

/-- No walk that ends starts on a loop. -/
theorem not_above_self (h : t.WalksUp x as) : ¬ t.Above x x := by
  intro hx
  obtain ⟨bs, hbs, hlt⟩ := h.exists_shorter hx
  rw [h.unique hbs] at hlt
  exact Nat.lt_irrefl _ hlt

theorem above_of_mem (h : t.WalksUp x as) (ha : a ∈ as) : t.Above a x := by
  induction h with
  | top _ => exact absurd ha List.not_mem_nil
  | step hp _ ih =>
    rcases List.mem_cons.1 ha with rfl | ha
    · exact .parent hp
    · exact .up hp (ih ha)

theorem nodup (h : t.WalksUp x as) : as.Nodup := by
  induction h with
  | top _ => exact List.nodup_nil
  | step _ h ih => exact List.nodup_cons.2 ⟨fun hp => h.not_above_self (h.above_of_mem hp), ih⟩

end WalksUp

theorem Above.exists_child (h : t.Above a x) : ∃ y, t.parent? y = some a := by
  induction h with
  | parent hp => exact ⟨_, hp⟩
  | up _ _ ih => exact ih

/-- A parent is a known node. -/
theorem Linked.lt_size_of_parent (h : t.Linked) (hp : t.parent? x = some p) : p < t.size :=
  lt_size_of_children ((h.mem_children_iff p x).2 hp)

theorem Linked.lt_size_of_above (h : t.Linked) (ha : t.Above a x) : a < t.size := by
  obtain ⟨y, hy⟩ := ha.exists_child
  exact h.lt_size_of_parent hy

/-- Different nodes of a tree are not more than there are. -/
theorem length_le_size_of_nodup (hnodup : as.Nodup) (hknown : ∀ a ∈ as, a < t.size) :
    as.length ≤ t.size := by
  have hrange : as ⊆ List.range t.size := fun a ha => List.mem_range.2 (hknown a ha)
  have hlength := (hnodup.subperm hrange).length_le
  rwa [List.length_range] at hlength

theorem ancestorsWithin_eq (h : t.WalksUp x as) {limit : ℕ} (hlimit : as.length ≤ limit) :
    t.ancestorsWithin limit x = as := by
  induction h generalizing limit with
  | top hp =>
    cases limit with
    | zero => rfl
    | succ limit => rw [ancestorsWithin, hp]
  | step hp _ ih =>
    cases limit with
    | zero => exact absurd hlimit (Nat.not_succ_le_zero _)
    | succ limit =>
      rw [ancestorsWithin, hp]
      exact congrArg _ (ih (Nat.le_of_succ_le_succ hlimit))

/-- Where the walk up from a node ends, the ancestors of the node are what it passes. A walk that
ends passes no node twice, so it is not longer than there are nodes. -/
theorem ancestors_eq_of_walksUp (ht : t.Linked) (h : t.WalksUp x as) : t.ancestors x = as :=
  ancestorsWithin_eq h
    (length_le_size_of_nodup h.nodup fun _ ha => ht.lt_size_of_above (h.above_of_mem ha))

/-! ## Rooted trees -/

/-- The document is at the top, and every walk up ends. -/
structure Rooted (t : Tree) : Prop where
  parent?_root : t.parent? root = none
  ends : ∀ x : NodeId, ∃ as, t.WalksUp x as

theorem Rooted.empty : Tree.empty.Rooted where
  parent?_root := rfl
  ends x := by
    refine ⟨[], .top ?_⟩
    cases hp : Tree.empty.parent? x with
    | none => rfl
    | some p =>
      have hx : x = 0 := Nat.lt_one_iff.1 (lt_size_of_parent? hp)
      subst hx
      cases hp

/-- All parents of one tree are parents in another. -/
def ParentsKept (t t' : Tree) : Prop :=
  ∀ x p : NodeId, t.parent? x = some p → t'.parent? x = some p

theorem Above.of_parentsKept (hkept : t.ParentsKept t') (h : t.Above a x) : t'.Above a x := by
  induction h with
  | parent hp => exact .parent (hkept _ _ hp)
  | up hp _ ih => exact .up (hkept _ _ hp) ih

/-- What is rooted with more links is rooted with fewer: the walks are cut short. -/
theorem Rooted.of_parentsKept (hkept : t.ParentsKept t') (h : t'.Rooted) : t.Rooted where
  parent?_root := by
    cases hp : t.parent? root with
    | none => rfl
    | some p =>
      have hroot := hkept _ _ hp
      rw [h.parent?_root] at hroot
      cases hroot
  ends x := by
    -- along the walk with more links, up to the first link that is missing
    obtain ⟨as, has⟩ := h.ends x
    induction has with
    | @top x hp' =>
      refine ⟨[], .top ?_⟩
      cases hp : t.parent? x with
      | none => rfl
      | some p =>
        rw [hkept _ _ hp] at hp'
        cases hp'
    | @step p' x _ hp' _ ih =>
      cases hp : t.parent? x with
      | none => exact ⟨[], .top hp⟩
      | some p =>
        obtain rfl : p' = p := Option.some.inj (hp'.symm.trans (hkept _ _ hp))
        obtain ⟨bs, hbs⟩ := ih
        exact ⟨p' :: bs, .step hp hbs⟩

/-! ## One edit -/

/-- The edit does not attach the document, and attaches no node below itself. -/
def Edit.IsSafe (t : Tree) : Edit → Prop
  | .append parent child => t.canAppend parent child → child ≠ root ∧ ¬ t.Above child parent
  | .alloc _ | .appendElement .. | .appendText .. => True

theorem parentsKept_append (t : Tree) (p c : NodeId) : t.ParentsKept (t.append p c) := by
  intro x q hq
  rw [parent?_append]
  split
  · next hnew =>
    obtain ⟨happend, rfl⟩ := hnew
    rw [(canAppend_iff.1 happend).2.2.2] at hq
    cases hq
  · exact hq

/-- A walk that does not come to the child that is appended stays as it was. -/
theorem WalksUp.append (h : t.WalksUp x as) (hx : x ≠ c) (hc : ¬ t.Above c x) :
    (t.append p c).WalksUp x as := by
  -- only `c` gets a new parent
  have hsame : ∀ y, y ≠ c → (t.append p c).parent? y = t.parent? y := by
    intro y hy
    rw [parent?_append, if_neg fun hnew => hy hnew.2]
  induction h with
  | top hp => exact .top ((hsame _ hx).trans hp)
  | step hp _ ih =>
    refine .step ((hsame _ hx).trans hp) (ih ?_ ?_)
    · rintro rfl
      exact hc (.parent hp)
    · intro habove
      exact hc (.up hp habove)

theorem rooted_append_iff (happend : t.canAppend p c) :
    (t.append p c).Rooted ↔ t.Rooted ∧ c ≠ root ∧ ¬ t.Above c p := by
  obtain ⟨hne, -, -, hc⟩ := canAppend_iff.1 happend
  have hkept := parentsKept_append t p c
  have hnew : (t.append p c).parent? c = some p := by
    rw [parent?_append, if_pos ⟨happend, rfl⟩]
  constructor
  · intro h
    refine ⟨h.of_parentsKept hkept, ?_, ?_⟩
    · rintro rfl
      rw [h.parent?_root] at hnew
      cases hnew
    · -- from the child up to its parent, and on to the child
      intro habove
      obtain ⟨as, has⟩ := h.ends c
      exact has.not_above_self (.up hnew (habove.of_parentsKept hkept))
  · rintro ⟨h, hroot, hnot⟩
    obtain ⟨ps, hps⟩ := h.ends p
    have hps' : (t.append p c).WalksUp p ps := hps.append hne hnot
    refine ⟨?_, ?_⟩
    · rw [parent?_append, if_neg fun hdocument => hroot hdocument.2.symm]
      exact h.parent?_root
    · intro x
      obtain ⟨as, has⟩ := h.ends x
      -- a walk that ended at the child goes on to the walk from its parent
      induction has with
      | @top x hp =>
        by_cases hx : x = c
        · subst hx
          exact ⟨p :: ps, .step hnew hps'⟩
        · exact ⟨[], .top (by rw [parent?_append, if_neg fun h => hx h.2, hp])⟩
      | step hp _ ih =>
        obtain ⟨bs, hbs⟩ := ih
        exact ⟨_ :: bs, .step (hkept _ _ hp) hbs⟩

theorem rooted_alloc_iff (t : Tree) (kind : NodeKind) : (t.alloc kind).1.Rooted ↔ t.Rooted := by
  constructor
  · exact Rooted.of_parentsKept fun x p hp => by rwa [parent?_alloc]
  · exact Rooted.of_parentsKept fun x p hp => by rwa [parent?_alloc] at hp

/-- A new node has nothing below it. -/
theorem rooted_appendNew_iff (ht : t.Linked) (p : NodeId) (kind : NodeKind) :
    (t.appendNew p kind).1.Rooted ↔ t.Rooted := by
  rw [← rooted_alloc_iff t kind]
  by_cases happend : (t.alloc kind).1.canAppend p t.size
  · have hroot : t.size ≠ root := Nat.ne_of_gt ht.size_pos
    have hnot : ¬ (t.alloc kind).1.Above t.size p := by
      intro habove
      obtain ⟨y, hy⟩ := habove.exists_child
      rw [parent?_alloc] at hy
      exact Nat.lt_irrefl _ (ht.lt_size_of_parent hy)
    exact (rooted_append_iff happend).trans ⟨And.left, fun h => ⟨h, hroot, hnot⟩⟩
  · -- under an unknown parent the new node stays detached
    have hsame : (t.appendNew p kind).1 = (t.alloc kind).1 := if_neg happend
    rw [hsame]

/-- A tree is rooted after an edit exactly if it was before and the edit is safe. -/
theorem rooted_edit_iff (ht : t.Linked) (e : Edit) :
    (t.edit e).Rooted ↔ t.Rooted ∧ e.IsSafe t := by
  cases e with
  | alloc kind => exact (rooted_alloc_iff t kind).trans (and_iff_left trivial).symm
  | appendElement parent tag attributes =>
    exact (rooted_appendNew_iff ht parent _).trans (and_iff_left trivial).symm
  | appendText parent content =>
    exact (rooted_appendNew_iff ht parent _).trans (and_iff_left trivial).symm
  | append parent child =>
    by_cases happend : t.canAppend parent child
    · exact (rooted_append_iff happend).trans
        (and_congr_right fun _ => ⟨fun h _ => h, fun h => h happend⟩)
    · have hsame : t.edit (.append parent child) = t := if_neg happend
      rw [hsame]
      exact (and_iff_left fun h => absurd h happend).symm

/-! ## Histories -/

theorem rooted_after_iff (edits : List Edit) :
    (after edits).Rooted ↔ ∀ before e, before ++ [e] <+: edits → e.IsSafe (after before) := by
  induction edits using List.reverseRecOn with
  | nil =>
    refine ⟨fun _ before e hinit => ?_, fun _ => .empty⟩
    exact absurd (List.prefix_nil.1 hinit) (by simp)
  | append_singleton edits last ih =>
    rw [after_concat, rooted_edit_iff (built_after edits).linked, ih]
    -- an edit of the longer history is the last one or one of the shorter history
    constructor
    · rintro ⟨hbefore, hlast⟩ before e hinit
      rcases List.prefix_concat_iff.1 hinit with heq | hinit
      · obtain ⟨rfl, he⟩ := List.append_inj' heq rfl
        obtain rfl := List.head_eq_of_cons_eq he
        exact hlast
      · exact hbefore before e hinit
    · intro h
      refine ⟨?_, h edits last (List.prefix_refl _)⟩
      intro before e hinit
      exact h before e (hinit.trans (List.prefix_append _ _))

/-- After a history the walk up from every node ends, with the document at the top, exactly if no
edit of it attached the document or attached a node below itself. Where the walk from a node ends,
its ancestors are what the walk passes, and its depth is their number. -/
theorem walks_end_iff (edits : List Edit) :
    (((after edits).parent? root = none ∧ ∀ x, ∃ as, (after edits).WalksUp x as) ↔
      ∀ before e, before ++ [e] <+: edits → e.IsSafe (after before)) ∧
    ∀ x as, (after edits).WalksUp x as →
      (after edits).ancestors x = as ∧ (after edits).depth x = as.length := by
  constructor
  · rw [← rooted_after_iff]
    exact ⟨fun h => ⟨h.1, h.2⟩, fun h => ⟨h.parent?_root, h.ends⟩⟩
  · intro x as h
    have hancestors := ancestors_eq_of_walksUp (built_after edits).linked h
    exact ⟨hancestors, by rw [depth, hancestors]⟩

/-- A text that is attached late, but below a node that is not below it, leaves the tree rooted and
gets the two nodes above it as its ancestors. -/
theorem walks_end_iff_of_late_text :
    let t := after [.appendElement root "p" [], .alloc (.text "a"), .append 1 2]
    (t.parent? root = none ∧ ∀ x, ∃ as, t.WalksUp x as) ∧
      t.ancestors 2 = [1, root] ∧ t.depth 2 = 2 := by
  intro t
  obtain ⟨hsafe, hwalk⟩ :=
    walks_end_iff [.appendElement root "p" [], .alloc (.text "a"), .append 1 2]
  refine ⟨hsafe.2 ?_, hwalk 2 [1, root] ?_⟩
  · intro before e hinit
    have hlast : before ++ [e] <+:
        [.appendElement root "p" [], .alloc (.text "a")] ++ [.append 1 2] := hinit
    rcases List.prefix_concat_iff.1 hlast with heq | hinit
    · obtain ⟨rfl, he⟩ := List.append_inj' heq rfl
      obtain rfl := List.head_eq_of_cons_eq he
      refine fun _ => ⟨by decide, fun habove => ?_⟩
      rcases habove.eq_or_above (p := root) (by decide) with heq | habove
      · exact absurd heq (by decide)
      · obtain ⟨p, hp⟩ := habove.exists_parent
        exact Option.some_ne_none p (hp.symm.trans (by decide))
    · have hmem : e ∈ [Edit.appendElement root "p" [], .alloc (.text "a")] :=
        hinit.subset (by simp)
      simp only [List.mem_cons, List.not_mem_nil, or_false] at hmem
      rcases hmem with rfl | rfl <;> trivial
  · exact .step (by decide) (.step (by decide) (.top (by decide)))

/-- The document is attached to its own child. From then on it has a parent, and no walk up from it
ends. Two nodes that were attached to nothing can be attached to each other, too. -/
theorem document_in_loop :
    let t := after [.appendElement root "div" [], .append 1 root]
    let t' := after [.alloc (.text "a"), .alloc (.text "b"), .append 1 2, .append 2 1]
    (t.parent? root = some 1 ∧ ¬ ∃ as, t.WalksUp root as) ∧
      t'.parent? 1 = some 2 ∧ t'.parent? 2 = some 1 ∧ ¬ ∃ as, t'.WalksUp 1 as := by
  intro t t'
  have hroot : t.Above root root := .up (p := 1) (by decide) (.parent (by decide))
  have hnode : t'.Above 1 1 := .up (p := 2) (by decide) (.parent (by decide))
  refine ⟨⟨by decide, ?_⟩, by decide, by decide, ?_⟩
  · rintro ⟨as, has⟩
    exact has.not_above_self hroot
  · rintro ⟨as, has⟩
    exact has.not_above_self hnode

end Tree

end BoxFlow
