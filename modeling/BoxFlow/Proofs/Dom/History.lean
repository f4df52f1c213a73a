import BoxFlow.Proofs.Dom.Links
import Mathlib.Data.List.Chain
import Mathlib.Data.List.Nodup

/-!
# The four kinds of links

A node knows its parent, its children and both of its neighbours, so every link is kept in more than
one place. A tree has a history: edits, with whatever indices, that start at the document alone
(`Tree.after`). This module shows what holds of the links after every history
(`Tree.links_agree`). One edit restores all of it (`Tree.LinksAgree.append`): the child that is
appended had no parent, so it stands in no list of children and has no neighbours yet, and the one
neighbour that it gets was the last child.

The links to neighbours say nothing of their own: one node has another as its neighbour exactly if
the two follow each other among the children of some node (`Tree.LinksAgree.next?_eq_some_iff`,
`Tree.LinksAgree.previous?_eq_some_iff`). So no link leads out of the tree.
-/

set_option autoImplicit false

namespace BoxFlow

namespace Tree

variable {t : Tree} {a b c p q x : NodeId}

/-! ## Histories -/

/-- One step of building a tree, with whatever indices. -/
inductive Edit where
  | alloc (kind : NodeKind)
  | append (parent child : NodeId)
  | appendElement (parent : NodeId) (tag : String) (attributes : List (String × String))
  | appendText (parent : NodeId) (content : String)

/-- The tree after one more edit. -/
def edit (t : Tree) : Edit → Tree
  | .alloc kind => (t.alloc kind).1
  | .append parent child => t.append parent child
  | .appendElement parent tag attributes =>
    (t.appendNew parent (.element (.ofWritten tag attributes))).1
  | .appendText parent content => (t.appendNew parent (.text content)).1

/-- The tree that a sequence of edits makes of the document alone. -/
def after (edits : List Edit) : Tree :=
  edits.foldl edit .empty

theorem after_concat (edits : List Edit) (e : Edit) :
    after (edits ++ [e]) = (after edits).edit e :=
  List.foldl_concat ..

theorem Built.edit (h : t.Built) : ∀ e : Edit, (t.edit e).Built
  | .alloc kind => .alloc kind h
  | .append parent child => .append parent child h
  | .appendElement parent _ _ => h.appendNew parent _
  | .appendText parent _ => h.appendNew parent _

theorem built_after (edits : List Edit) : (after edits).Built := by
  induction edits using List.reverseRecOn with
  | nil => exact .empty
  | append_singleton edits e ih =>
    rw [after_concat]
    exact ih.edit e

/-! ## The next sibling -/

theorem lt_size_of_children (h : c ∈ t.children p) : p < t.size := by
  by_contra hp
  rw [children, get?_eq_none (Nat.le_of_not_lt hp)] at h
  exact absurd h List.not_mem_nil

/-- Until the last child so far is told of its new neighbour, appending sets no next sibling. -/
theorem exists_append_eq (h : t.canAppend p c) :
    ∃ u : Tree, (∀ x, (u.get? x).map Node.next = (t.get? x).map Node.next) ∧
      t.append p c =
        match (t.children p).getLast? with
        | none => u
        | some l => u.modify l fun n => { n with next := some c } := by
  refine ⟨_, ?_, if_pos h⟩
  intro x
  simp only [map_get?_modify, implies_true]

/-- The last child so far gets the child that is appended as its next sibling. -/
theorem next?_append (h : t.Linked) (p c x : NodeId) :
    (t.append p c).next? x =
      if t.canAppend p c ∧ (t.children p).getLast? = some x then some c else t.next? x := by
  by_cases happend : t.canAppend p c
  · obtain ⟨u, hu, heq⟩ := exists_append_eq happend
    rw [heq, next?, next?]
    cases hlast : (t.children p).getLast? with
    | none => rw [if_neg (by simp), bind_eq_join, hu, bind_eq_join]
    | some l =>
      simp only [get?_modify]
      by_cases hx : l = x
      · -- the last child is a known node, so its link is really set
        subst hx
        have hmem : l ∈ t.children p := List.mem_of_getLast? hlast
        have hl : l < t.size := lt_size_of_parent? ((h.mem_children_iff p l).1 hmem)
        have hknown : (t.get? l).map Node.next = some t.nodes[l].next := by
          rw [get?, Array.getElem?_eq_getElem hl]
          rfl
        obtain ⟨n, hn, -⟩ := Option.map_eq_some_iff.1 ((hu l).trans hknown)
        rw [if_pos rfl, if_pos ⟨happend, rfl⟩, hn]
        rfl
      · rw [if_neg hx, if_neg (fun hp => hx (Option.some.inj hp.2)), bind_eq_join, hu, bind_eq_join]
  · rw [append, if_neg happend, if_neg (fun hp => happend hp.1)]

/-! ## Agreement -/

/-- All links of a tree agree. Besides what `Linked` says of parents and children, a child stands
once in its list and is linked to its neighbours there, and nothing else has a neighbour. -/
structure LinksAgree (t : Tree) : Prop where
  linked : t.Linked
  nodup : ∀ p : NodeId, (t.children p).Nodup
  neighbours : ∀ p : NodeId,
    (t.children p).IsChain fun a b => t.next? a = some b ∧ t.previous? b = some a
  previous?_first : ∀ p c : NodeId, (t.children p).head? = some c → t.previous? c = none
  next?_last : ∀ p c : NodeId, (t.children p).getLast? = some c → t.next? c = none
  detached : ∀ c : NodeId, t.parent? c = none → t.next? c = none ∧ t.previous? c = none

namespace LinksAgree

theorem empty : Tree.empty.LinksAgree := by
  have hchildren : ∀ p, Tree.empty.children p = [] := by
    intro p
    rw [List.eq_nil_iff_forall_not_mem]
    intro c hc
    -- a child has a parent, and the document, which is the only node, has none
    rw [Linked.empty.mem_children_iff] at hc
    have hc0 : c = 0 := Nat.lt_one_iff.1 (lt_size_of_parent? hc)
    subst hc0
    exact absurd hc.symm (Option.some_ne_none p)
  refine ⟨Linked.empty, ?_, ?_, ?_, ?_, ?_⟩
  · intro p
    rw [hchildren]
    exact List.nodup_nil
  · intro p
    rw [hchildren]
    exact List.isChain_nil
  · intro p c hc
    rw [hchildren] at hc
    cases hc
  · intro p c hc
    rw [hchildren] at hc
    cases hc
  · intro c _
    cases c with
    | zero => exact ⟨rfl, rfl⟩
    | succ c =>
      have hnone : Tree.empty.get? (c + 1) = none := get?_eq_none (Nat.le_add_left 1 c)
      rw [next?, previous?, hnone]
      exact ⟨rfl, rfl⟩

/-- A new node is linked to nothing. -/
theorem alloc (h : t.LinksAgree) (kind : NodeKind) : (t.alloc kind).1.LinksAgree := by
  refine ⟨h.linked.alloc kind, ?_, ?_, ?_, ?_, ?_⟩
  all_goals simp only [children_alloc, next?_alloc, previous?_alloc, parent?_alloc]
  · exact h.nodup
  · exact h.neighbours
  · exact h.previous?_first
  · exact h.next?_last
  · exact h.detached

/-- A node without a parent stands in no list of children. -/
theorem notMem_children (h : t.LinksAgree) (hc : t.parent? c = none) (q : NodeId) :
    c ∉ t.children q := by
  intro hq
  rw [h.linked.mem_children_iff, hc] at hq
  cases hq

/-! ### What appending does to each part of the agreement -/

section Append

variable (h : t.LinksAgree) (happend : t.canAppend p c)

include h happend

theorem nodup_append (q : NodeId) : ((t.append p c).children q).Nodup := by
  obtain ⟨-, -, -, hc⟩ := canAppend_iff.1 happend
  rw [children_append]
  split
  · exact (h.nodup q).append (List.pairwise_singleton _ c)
      (List.disjoint_singleton.2 (h.notMem_children hc q))
  · exact h.nodup q

/-- What two neighbours know of each other is kept: the first is not the last child of `p`, and the
second is not `c`. -/
theorem neighbours_kept (hab : t.next? a = some b ∧ t.previous? b = some a) :
    (t.append p c).next? a = some b ∧ (t.append p c).previous? b = some a := by
  obtain ⟨-, -, -, hc⟩ := canAppend_iff.1 happend
  obtain ⟨ha, hb⟩ := hab
  rw [next?_append h.linked, previous?_append, if_neg, if_neg]
  · exact ⟨ha, hb⟩
  · rintro ⟨-, rfl⟩
    rw [(h.detached b hc).2] at hb
    cases hb
  · rintro ⟨-, hlast⟩
    rw [h.next?_last p a hlast] at ha
    cases ha

theorem neighbours_append (q : NodeId) : ((t.append p c).children q).IsChain fun a b =>
    (t.append p c).next? a = some b ∧ (t.append p c).previous? b = some a := by
  have hold := (h.neighbours q).imp fun a b => h.neighbours_kept happend
  rw [children_append]
  split
  · next hq =>
    obtain ⟨-, rfl⟩ := hq
    refine List.isChain_append.2 ⟨hold, List.isChain_singleton c, ?_⟩
    -- the pair that is new is the last child so far with `c`
    intro a ha b hb
    obtain rfl : c = b := Option.some.inj hb
    have hlast : (t.children q).getLast? = some a := ha
    rw [next?_append h.linked, previous?_append, if_pos ⟨happend, hlast⟩, if_pos ⟨happend, rfl⟩]
    exact ⟨rfl, hlast⟩
  · exact hold

theorem previous?_first_append (hx : ((t.append p c).children q).head? = some x) :
    (t.append p c).previous? x = none := by
  obtain ⟨-, -, -, hc⟩ := canAppend_iff.1 happend
  have hfree := h.notMem_children hc q
  rw [children_append] at hx
  rw [previous?_append]
  by_cases hxc : x = c
  · -- a first child that is new has no other before it
    subst hxc
    rw [if_pos ⟨happend, rfl⟩]
    split at hx
    · next hq =>
      obtain ⟨-, rfl⟩ := hq
      cases hlist : t.children q with
      | nil => rfl
      | cons a as =>
        rw [hlist] at hx
        obtain rfl : a = x := Option.some.inj hx
        exact absurd (hlist ▸ List.mem_cons_self) hfree
    · exact absurd (List.mem_of_head? hx) hfree
  · rw [if_neg fun hnew => hxc hnew.2]
    split at hx
    · rw [List.head?_append, Option.or_eq_some_iff] at hx
      rcases hx with hx | ⟨-, hx⟩
      · exact h.previous?_first q x hx
      · exact absurd (Option.some.inj hx).symm hxc
    · exact h.previous?_first q x hx

theorem next?_last_append (hx : ((t.append p c).children q).getLast? = some x) :
    (t.append p c).next? x = none := by
  obtain ⟨-, -, -, hc⟩ := canAppend_iff.1 happend
  rw [children_append] at hx
  rw [next?_append h.linked]
  split at hx
  · -- the child that is new
    rw [List.getLast?_concat] at hx
    obtain rfl := Option.some.inj hx
    rw [if_neg fun hlast => h.notMem_children hc p (List.mem_of_getLast? hlast.2)]
    exact (h.detached c hc).1
  · next hq =>
    -- a child of another node is not the last one of `p`
    rw [if_neg]
    · exact h.next?_last q x hx
    · rintro ⟨-, hlast⟩
      have hparent := (h.linked.mem_children_iff q x).1 (List.mem_of_getLast? hx)
      rw [(h.linked.mem_children_iff p x).1 (List.mem_of_getLast? hlast)] at hparent
      exact hq ⟨happend, (Option.some.inj hparent).symm⟩

end Append

theorem detached_append (h : t.LinksAgree) (p c : NodeId)
    (hx : (t.append p c).parent? x = none) :
    (t.append p c).next? x = none ∧ (t.append p c).previous? x = none := by
  rw [parent?_append] at hx
  split at hx
  · cases hx
  · next hxc =>
    rw [next?_append h.linked, previous?_append, if_neg, if_neg hxc]
    · exact h.detached x hx
    · rintro ⟨-, hlast⟩
      exact h.notMem_children hx p (List.mem_of_getLast? hlast)

theorem append (h : t.LinksAgree) (p c : NodeId) : (t.append p c).LinksAgree := by
  by_cases happend : t.canAppend p c
  · exact {
      linked := h.linked.append p c
      nodup := h.nodup_append happend
      neighbours := h.neighbours_append happend
      previous?_first := fun _ _ => h.previous?_first_append happend
      next?_last := fun _ _ => h.next?_last_append happend
      detached := fun _ => h.detached_append p c }
  · rw [Tree.append, if_neg happend]
    exact h

end LinksAgree

/-- In every tree that can be built, all links agree. -/
theorem Built.linksAgree (h : t.Built) : t.LinksAgree := by
  induction h with
  | empty => exact .empty
  | alloc kind _ ih => exact ih.alloc kind
  | append parent child _ ih => exact ih.append parent child

/-! ## What the agreement gives -/

namespace LinksAgree

/-- Of two children that follow each other, each is linked to the other. -/
theorem next?_previous?_of_eq (h : t.LinksAgree) {before rest : List NodeId}
    (heq : t.children p = before ++ a :: b :: rest) :
    t.next? a = some b ∧ t.previous? b = some a :=
  List.isChain_iff_forall_rel_of_append_cons_cons.1 (h.neighbours p) heq

theorem next?_eq_some_iff (h : t.LinksAgree) :
    t.next? a = some b ↔ ∃ p before rest, t.children p = before ++ a :: b :: rest := by
  constructor
  · intro hab
    -- a node with a next sibling is neither detached nor a last child
    cases hp : t.parent? a with
    | none =>
      rw [(h.detached a hp).1] at hab
      cases hab
    | some p =>
      obtain ⟨before, rest, heq⟩ := List.append_of_mem ((h.linked.mem_children_iff p a).2 hp)
      cases rest with
      | nil =>
        rw [h.next?_last p a (by rw [heq, List.getLast?_concat])] at hab
        cases hab
      | cons b' rest =>
        rw [(h.next?_previous?_of_eq heq).1] at hab
        obtain rfl := Option.some.inj hab
        exact ⟨p, before, rest, heq⟩
  · rintro ⟨p, before, rest, heq⟩
    exact (h.next?_previous?_of_eq heq).1

theorem previous?_eq_some_iff (h : t.LinksAgree) :
    t.previous? b = some a ↔ ∃ p before rest, t.children p = before ++ a :: b :: rest := by
  constructor
  · intro hab
    -- a node with a previous sibling is neither detached nor a first child
    cases hp : t.parent? b with
    | none =>
      rw [(h.detached b hp).2] at hab
      cases hab
    | some p =>
      obtain ⟨before, rest, heq⟩ := List.append_of_mem ((h.linked.mem_children_iff p b).2 hp)
      rcases List.eq_nil_or_concat before with rfl | ⟨before, a', rfl⟩
      · rw [h.previous?_first p b (by rw [heq]; rfl)] at hab
        cases hab
      · have hpair : t.children p = before ++ a' :: b :: rest := by simp [heq]
        rw [(h.next?_previous?_of_eq hpair).2] at hab
        obtain rfl := Option.some.inj hab
        exact ⟨p, before, rest, hpair⟩
  · rintro ⟨p, before, rest, heq⟩
    exact (h.next?_previous?_of_eq heq).2

/-- No link leads out of the tree. -/
theorem lt_size (h : t.LinksAgree) {id : NodeId} {n : Node} (hn : t.get? id = some n)
    (hx : n.parent = some x ∨ x ∈ n.children ∨ n.next = some x ∨ n.previous = some x) :
    x < t.size := by
  have hlink : ∀ link : Node → Option NodeId, (t.get? id).bind link = link n := by
    intro link
    rw [hn]
    rfl
  have hchild : ∀ {p c}, c ∈ t.children p → c < t.size := fun hc =>
    lt_size_of_parent? ((h.linked.mem_children_iff _ _).1 hc)
  -- every node that is linked to stands in a list of children, or has one
  rcases hx with hparent | hmem | hnext | hprevious
  · have hparent : t.parent? id = some x := (hlink Node.parent).trans hparent
    exact lt_size_of_children ((h.linked.mem_children_iff x id).2 hparent)
  · have heq : t.children id = n.children := by
      rw [children, hn]
      rfl
    exact hchild (heq ▸ hmem)
  · obtain ⟨p, before, rest, heq⟩ := h.next?_eq_some_iff.1 ((hlink Node.next).trans hnext)
    exact hchild (p := p) (by simp [heq])
  · obtain ⟨p, before, rest, heq⟩ :=
      h.previous?_eq_some_iff.1 ((hlink Node.previous).trans hprevious)
    exact hchild (p := p) (by simp [heq])

end LinksAgree

/-- What is not accepted is ignored, and nothing else is. -/
theorem append_eq_self_iff :
    t.append p c = t ↔ p = c ∨ t.size ≤ p ∨ t.size ≤ c ∨ (t.parent? c).isSome := by
  constructor
  · intro hsame
    by_contra hnot
    simp only [not_or, Nat.not_le, Option.not_isSome_iff_eq_none] at hnot
    have happend : t.canAppend p c := canAppend_iff.2 hnot
    -- an append that is accepted gives the child a parent, which it did not have
    have hparent := parent?_append t p c c
    rw [if_pos ⟨happend, rfl⟩, hsame, hnot.2.2.2] at hparent
    cases hparent
  · intro hrefused
    have happend : ¬ t.canAppend p c := by
      rw [canAppend_iff]
      rintro ⟨hne, hp, hc, hparent⟩
      rcases hrefused with rfl | hp' | hc' | hsome
      · exact hne rfl
      · exact Nat.not_le_of_lt hp hp'
      · exact Nat.not_le_of_lt hc hc'
      · rw [hparent] at hsome
        cases hsome
    rw [append, if_neg happend]

/-- After every history the links of the tree agree. A node has a parent exactly if it is among the
children of that parent, and then it is there once and in no other list. Children that follow each
other are linked to each other, a first child has none before it, a last child none after it, and a
node without a parent neither. Every index that is stored is that of a node. And an append changes
nothing exactly if it is refused: for a node under itself, an unknown index, or a child that has a
parent. -/
theorem links_agree (edits : List Edit) :
    let t := after edits
    (∀ p c, t.parent? c = some p ↔ c ∈ t.children p) ∧
      (∀ p c, t.parent? c = some p →
        (t.children p).count c = 1 ∧ ∀ q, c ∈ t.children q → q = p) ∧
      (∀ p before a b rest, t.children p = before ++ a :: b :: rest →
        t.next? a = some b ∧ t.previous? b = some a) ∧
      (∀ p c, t.firstChild? p = some c → t.previous? c = none) ∧
      (∀ p c, (t.children p).getLast? = some c → t.next? c = none) ∧
      (∀ c, t.parent? c = none → t.next? c = none ∧ t.previous? c = none) ∧
      (∀ id n, t.get? id = some n → ∀ x,
        n.parent = some x ∨ x ∈ n.children ∨ n.next = some x ∨ n.previous = some x →
          x < t.size) ∧
      ∀ p c, t.append p c = t ↔ p = c ∨ t.size ≤ p ∨ t.size ≤ c ∨ (t.parent? c).isSome := by
  intro t
  have h : t.LinksAgree := (built_after edits).linksAgree
  have hchild : ∀ p c, t.parent? c = some p ↔ c ∈ t.children p :=
    fun p c => (h.linked.mem_children_iff p c).symm
  refine ⟨hchild, ?_, ?_, h.previous?_first, h.next?_last, h.detached, ?_, ?_⟩
  · intro p c hp
    refine ⟨List.count_eq_one_of_mem (h.nodup p) ((hchild p c).1 hp), ?_⟩
    intro q hq
    exact Option.some.inj (((hchild q c).2 hq).symm.trans hp)
  · intro p before a b rest heq
    exact h.next?_previous?_of_eq heq
  · intro id n hn x hx
    exact h.lt_size hn hx
  · intro p c
    exact append_eq_self_iff

/-- Three texts in a list, of which one was attached late, and two appends that are refused. -/
theorem links_agree_of_list :
    let t := after [.appendElement root "ul" [], .appendText 1 "a", .alloc (.text "b"),
      .appendText 1 "c", .append 3 3, .append 1 3, .append 0 3]
    t.children 1 = [2, 4, 3] ∧ (t.children 1).count 3 = 1 ∧
      (t.next? 4 = some 3 ∧ t.previous? 3 = some 4) ∧ t.previous? 2 = none ∧ t.next? 3 = none ∧
      (t.next? root = none ∧ t.previous? root = none) ∧ 3 < t.size ∧ t.append 0 3 = t := by
  intro t
  obtain ⟨-, honce, hpair, hfirst, hlast, hdetached, hknown, hignored⟩ := links_agree
    [.appendElement root "ul" [], .appendText 1 "a", .alloc (.text "b"), .appendText 1 "c",
      .append 3 3, .append 1 3, .append 0 3]
  have hchildren : t.children 1 = [2, 4, 3] := by decide
  refine ⟨hchildren, (honce 1 3 (by decide)).1, ?_, ?_, ?_, ?_, ?_, ?_⟩
  · exact hpair 1 [2] 4 3 [] hchildren
  · exact hfirst 1 2 (by decide)
  · exact hlast 1 3 (by decide)
  · exact hdetached root (by decide)
  · exact hknown 4 ⟨.text "c", some 1, [], some 3, some 2⟩ (by decide) 3
      (Or.inr (Or.inr (Or.inl rfl)))
  · exact (hignored 0 3).2 (by decide)

end Tree

end BoxFlow
