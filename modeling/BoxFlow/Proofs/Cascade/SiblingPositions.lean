import BoxFlow.Proofs.Cascade.VisitedLinks
import BoxFlow.Proofs.Dom.History
import BoxFlow.Proofs.Selector.Reading

/-!
# Positions among sibling elements

Six pseudo-classes ask where an element stands among its siblings, and they see elements only: texts
and comments in between make no difference. Each of them looks at one end of a list of siblings or
counts it. Since no child occurs twice, an element is the only one that counts exactly if it is both
the first and the last of them.

An element stands between some children of its parent (`Tree.StandsBetween`), and what the
pseudo-classes see of these are the tags of the elements among them (`Tree.tagsOf`). All six say
something about these tags (`Tree.StandsBetween.selects_iff_sees`), from which the positions follow
(`Tree.structural_by_position`).
-/

set_option autoImplicit false

namespace BoxFlow

/-! ## Behind a star -/

namespace PlainPseudo

/-- A star with the pseudo-class behind it can be read as a selector and matches the node. -/
def Selects (kind : PlainPseudo) (s : Subject) : Prop :=
  ∃ c, Selector.parse ("*:" ++ kind.name).toList = .ok c ∧ 0 < c.specificity s

theorem parse_starred (kind : PlainPseudo) :
    Selector.parse ("*:" ++ kind.name).toList = .ok (.starred kind) := by
  have htext : ("*:" ++ kind.name).toList = ['*'] ++ (':' :: kind.name.toList) :=
    String.toList_append
  rw [htext, Selector.parse_eq_ok_iff]
  exact ⟨List.cons_ne_nil _ _, .part .star (.plain kind)⟩

theorem selects_iff {kind : PlainPseudo} {s : Subject} :
    kind.Selects s ↔ ∃ e, s.tree.element? s.id = some e ∧ kind.holds s e = true := by
  rw [Selects, parse_starred, ← Selector.specificity_starred_pos_iff]
  simp only [Except.ok.injEq, exists_eq_left']

/-- The pseudo-classes that ask for a position among siblings. -/
def structural : List PlainPseudo :=
  [firstChild, lastChild, onlyChild, firstOfType, lastOfType, onlyOfType]

/-- What a structural pseudo-class says about the tags of the elements in front of an element and
behind it. -/
def Sees (kind : PlainPseudo) (tag : String) (front back : List String) : Prop :=
  match kind with
  | firstChild => front = []
  | lastChild => back = []
  | onlyChild => front = [] ∧ back = []
  | firstOfType => tag ∉ front
  | lastOfType => tag ∉ back
  | onlyOfType => tag ∉ front ∧ tag ∉ back
  | _ => False

end PlainPseudo

/-! ## Ends of a list -/

section Ends

variable {α : Type} {x : α} {front back : List α}

theorem head?_append_cons_eq_iff (h : x ∉ front) :
    (front ++ x :: back).head? = some x ↔ front = [] := by
  cases front with
  | nil => simp
  | cons y front =>
    apply iff_of_false
    · rintro heq
      obtain rfl : y = x := Option.some.inj heq
      exact h List.mem_cons_self
    · exact List.cons_ne_nil y front

theorem getLast?_append_cons_eq_iff (h : x ∉ back) :
    (front ++ x :: back).getLast? = some x ↔ back = [] := by
  rw [List.getLast?_eq_head?_reverse, List.reverse_append, List.reverse_cons, List.append_assoc]
  exact (head?_append_cons_eq_iff (mt List.mem_reverse.1 h)).trans List.reverse_eq_nil_iff

theorem length_append_cons_eq_one_iff :
    (front ++ x :: back).length = 1 ↔ front = [] ∧ back = [] := by
  rw [← List.length_eq_zero_iff, ← List.length_eq_zero_iff, List.length_append, List.length_cons]
  omega

end Ends

namespace Tree

variable {t : Tree} {e : Element} {p x : NodeId} {front back ids : List NodeId} {tag : String}

/-! ## Elements between siblings -/

/-- The tags of the elements among some nodes. Texts and comments have none. -/
def tagsOf (t : Tree) (ids : List NodeId) : List String := ids.filterMap t.tag?

/-- The node is an element and stands between other children of its parent. -/
structure StandsBetween (t : Tree) (x : NodeId) (e : Element) (front back : List NodeId) :
    Prop where
  element : t.element? x = some e
  children : ∃ p, t.children p = front ++ x :: back

theorem tagsOf_eq_nil_iff : t.tagsOf ids = [] ↔ ∀ y ∈ ids, t.element? y = none := by
  simp [tagsOf, tag?]

theorem notMem_tagsOf_iff : tag ∉ t.tagsOf ids ↔ ∀ y ∈ ids, t.tag? y ≠ some tag := by
  simp [tagsOf]

theorem filter_element?_eq_nil_iff :
    (ids.filter fun y => (t.element? y).isSome) = [] ↔ t.tagsOf ids = [] := by
  simp [tagsOf_eq_nil_iff]

theorem filter_isTag_eq_nil_iff : (ids.filter (t.isTag · tag)) = [] ↔ tag ∉ t.tagsOf ids := by
  simp [notMem_tagsOf_iff, isTag]

namespace StandsBetween

theorem notMem (h : t.StandsBetween x e front back) (ht : t.LinksAgree) :
    x ∉ front ∧ x ∉ back := by
  obtain ⟨p, hp⟩ := h.children
  have hnodup := ht.nodup p
  rw [hp, List.nodup_middle, List.nodup_cons, List.mem_append, not_or] at hnodup
  exact hnodup.1

theorem siblings_eq (h : t.StandsBetween x e front back) (ht : t.LinksAgree) (visited : Visited) :
    Subject.siblings ⟨t, x, visited⟩ =
      (front.filter fun y => (t.element? y).isSome) ++
        x :: back.filter fun y => (t.element? y).isSome := by
  obtain ⟨p, hp⟩ := h.children
  have hparent : t.parent? x = some p := by
    rw [← ht.linked.mem_children_iff, hp]
    exact List.mem_append_right front List.mem_cons_self
  rw [Subject.siblings, hparent, Option.getD_some, elementChildren, hp, List.filter_append,
    List.filter_cons_of_pos (by rw [h.element]; rfl)]

theorem siblingsOfTag_eq (h : t.StandsBetween x e front back) (ht : t.LinksAgree)
    (visited : Visited) :
    Subject.siblingsOfTag ⟨t, x, visited⟩ e.tag =
      front.filter (t.isTag · e.tag) ++ x :: back.filter (t.isTag · e.tag) := by
  have hself : t.isTag x e.tag = true := by simp [isTag, tag?, h.element]
  show (Subject.siblings ⟨t, x, visited⟩).filter (t.isTag · e.tag) = _
  rw [h.siblings_eq ht, List.filter_append, List.filter_cons, if_pos hself,
    filter_isTag_filter_element?, filter_isTag_filter_element?]

/-- What stands at the ends of a list of siblings in which some have been left out, but not `x`. -/
theorem ends_iff (h : t.StandsBetween x e front back) (ht : t.LinksAgree) (keep : NodeId → Bool) :
    let ids := front.filter keep ++ x :: back.filter keep
    (ids.head? = some x ↔ front.filter keep = []) ∧
      (ids.getLast? = some x ↔ back.filter keep = []) ∧
      (ids.length = 1 ↔ front.filter keep = [] ∧ back.filter keep = []) := by
  obtain ⟨hfront, hback⟩ := h.notMem ht
  have hkept : ∀ ids : List NodeId, x ∉ ids → x ∉ ids.filter keep :=
    fun ids hids hx => hids (List.mem_of_mem_filter hx)
  exact ⟨head?_append_cons_eq_iff (hkept front hfront),
    getLast?_append_cons_eq_iff (hkept back hback), length_append_cons_eq_one_iff⟩

/-- What a structural pseudo-class asks for is decided by the tags of the elements on both sides. -/
theorem holds_iff_sees {visited : Visited} (h : t.StandsBetween x e front back)
    (ht : t.LinksAgree) {kind : PlainPseudo} (hkind : kind ∈ PlainPseudo.structural) :
    kind.holds ⟨t, x, visited⟩ e = true ↔
      kind.Sees e.tag (t.tagsOf front) (t.tagsOf back) := by
  -- three of them look at all elements among the siblings, the others at those of the tag
  obtain ⟨hfirst, hlast, honly⟩ := h.ends_iff ht fun y => (t.element? y).isSome
  obtain ⟨hfirstOfTag, hlastOfTag, honlyOfTag⟩ := h.ends_iff ht (t.isTag · e.tag)
  simp only [← h.siblings_eq ht visited, filter_element?_eq_nil_iff]
    at hfirst hlast honly
  simp only [← h.siblingsOfTag_eq ht visited, filter_isTag_eq_nil_iff]
    at hfirstOfTag hlastOfTag honlyOfTag
  simp only [PlainPseudo.structural, List.mem_cons, List.not_mem_nil, or_false] at hkind
  rcases hkind with rfl | rfl | rfl | rfl | rfl | rfl
  · exact beq_iff_eq.trans hfirst
  · exact beq_iff_eq.trans hlast
  · exact beq_iff_eq.trans honly
  · exact beq_iff_eq.trans hfirstOfTag
  · exact beq_iff_eq.trans hlastOfTag
  · exact beq_iff_eq.trans honlyOfTag

theorem selects_iff_sees {visited : Visited} (h : t.StandsBetween x e front back)
    (ht : t.LinksAgree) {kind : PlainPseudo} (hkind : kind ∈ PlainPseudo.structural) :
    kind.Selects ⟨t, x, visited⟩ ↔ kind.Sees e.tag (t.tagsOf front) (t.tagsOf back) := by
  rw [PlainPseudo.selects_iff, ← h.holds_iff_sees ht hkind]
  constructor
  · rintro ⟨e', he', hholds⟩
    obtain rfl : e = e' := Option.some.inj (h.element.symm.trans he')
    exact hholds
  · intro hholds
    exact ⟨e, h.element, hholds⟩

end StandsBetween

/-! ## The first and the last element -/

/-- Of the children of a node exactly one element matches a pseudo-class that asks for the one which
a rule picks from the sibling elements. -/
theorem existsUnique_selects (ht : t.LinksAgree) (visited : Visited) {kind : PlainPseudo}
    {pick : List NodeId → Option NodeId}
    (hholds : ∀ (s : Subject) (e : Element), kind.holds s e = (pick s.siblings == some s.id))
    (hsome : ∀ ids : List NodeId, ids ≠ [] → ∃ x ∈ ids, pick ids = some x)
    (hp : ∃ c ∈ t.children p, (t.element? c).isSome) :
    ∃! x, x ∈ t.children p ∧ kind.Selects ⟨t, x, visited⟩ := by
  -- all children of the node pick from the same list, so no two of them are picked
  have hselects : ∀ y ∈ t.children p,
      (kind.Selects ⟨t, y, visited⟩ ↔
        (t.element? y).isSome ∧ pick (t.elementChildren p) = some y) := by
    intro y hy
    have hsiblings : Subject.siblings ⟨t, y, visited⟩ = t.elementChildren p := by
      rw [Subject.siblings, (ht.linked.mem_children_iff p y).1 hy, Option.getD_some]
    simp only [PlainPseudo.selects_iff, hholds, hsiblings, beq_iff_eq, exists_and_right,
      Option.isSome_iff_exists]
  obtain ⟨c, hc, helement⟩ := hp
  have hne : t.elementChildren p ≠ [] :=
    List.ne_nil_of_mem (List.mem_filter.2 ⟨hc, helement⟩)
  obtain ⟨x, hx, hpick⟩ := hsome _ hne
  obtain ⟨hchild, helement⟩ := List.mem_filter.1 hx
  refine ⟨x, ⟨hchild, (hselects x hchild).2 ⟨helement, hpick⟩⟩, ?_⟩
  rintro y ⟨hy, hmatch⟩
  exact Option.some.inj (((hselects y hy).1 hmatch).2.symm.trans hpick)

theorem exists_head?_eq {ids : List NodeId} (h : ids ≠ []) : ∃ x ∈ ids, ids.head? = some x :=
  ⟨ids.head h, List.head_mem h, List.head?_eq_some_head h⟩

theorem exists_getLast?_eq {ids : List NodeId} (h : ids ≠ []) :
    ∃ x ∈ ids, ids.getLast? = some x :=
  ⟨ids.getLast h, List.getLast_mem h, List.getLast?_eq_some_getLast h⟩

/-! ## Positions -/

open PlainPseudo in
/-- After every history an element that has a parent stands between other children of it, and behind
a star the structural pseudo-classes match by what stands there. The first child is the element with
no other one in front of it, and the last child that with none behind it; an only child is both. For
those of a type, only elements with the same tag count. Every node with an element among its
children has exactly one that is the first, and exactly one that is the last. Texts and comments
never matter: between elements with the same tags in the same order, whatever else stands there, in
whatever tree and state, an element matches the same of these pseudo-classes. -/
theorem structural_by_position (edits : List Edit) (visited : Visited) :
    let t := after edits
    (∀ x p, t.parent? x = some p ↔ ∃ front back, t.children p = front ++ x :: back) ∧
      (∀ x e front back, t.StandsBetween x e front back →
        let s : Subject := ⟨t, x, visited⟩
        (firstChild.Selects s ↔ ∀ y ∈ front, t.element? y = none) ∧
        (lastChild.Selects s ↔ ∀ y ∈ back, t.element? y = none) ∧
        (onlyChild.Selects s ↔ firstChild.Selects s ∧ lastChild.Selects s) ∧
        (firstOfType.Selects s ↔ ∀ y ∈ front, t.tag? y ≠ some e.tag) ∧
        (lastOfType.Selects s ↔ ∀ y ∈ back, t.tag? y ≠ some e.tag) ∧
        (onlyOfType.Selects s ↔ firstOfType.Selects s ∧ lastOfType.Selects s)) ∧
      (∀ p, (∃ c ∈ t.children p, (t.element? c).isSome) →
        (∃! x, x ∈ t.children p ∧ firstChild.Selects ⟨t, x, visited⟩) ∧
        ∃! x, x ∈ t.children p ∧ lastChild.Selects ⟨t, x, visited⟩) ∧
      ∀ edits' visited' x x' e e' front back front' back',
        t.StandsBetween x e front back →
        (after edits').StandsBetween x' e' front' back' → e.tag = e'.tag →
        t.tagsOf front = (after edits').tagsOf front' →
        t.tagsOf back = (after edits').tagsOf back' →
        ∀ kind ∈ structural,
          (kind.Selects ⟨t, x, visited⟩ ↔ kind.Selects ⟨after edits', x', visited'⟩) := by
  intro t
  have ht : t.LinksAgree := (built_after edits).linksAgree
  refine ⟨?_, ?_, ?_, ?_⟩
  · intro x p
    rw [← ht.linked.mem_children_iff, List.mem_iff_append]
  · intro x e front back h s
    have hsees : ∀ kind ∈ structural,
        (kind.Selects s ↔ kind.Sees e.tag (t.tagsOf front) (t.tagsOf back)) :=
      fun kind hkind => h.selects_iff_sees ht hkind
    rw [hsees firstChild (by decide), hsees lastChild (by decide), hsees onlyChild (by decide),
      hsees firstOfType (by decide), hsees lastOfType (by decide), hsees onlyOfType (by decide)]
    exact ⟨tagsOf_eq_nil_iff, tagsOf_eq_nil_iff, Iff.rfl, notMem_tagsOf_iff, notMem_tagsOf_iff,
      Iff.rfl⟩
  · intro p hp
    exact ⟨existsUnique_selects ht visited (fun _ _ => rfl) (fun _ => exists_head?_eq) hp,
      existsUnique_selects ht visited (fun _ _ => rfl) (fun _ => exists_getLast?_eq) hp⟩
  · intro edits' visited' x x' e e' front back front' back' h h' htag hfront' hback' kind hkind
    rw [h.selects_iff_sees ht hkind,
      h'.selects_iff_sees (built_after edits').linksAgree hkind, htag, hfront', hback']

/-- Between two items of a list stands a paragraph, with a text and a comment on its sides. It is
not the first child, but the only one of its type, as it is without the text and the comment. -/
theorem structural_by_position_in_list :
    let edits : List Edit := [.appendElement root "ul" [], .appendElement 1 "li" [],
      .appendText 1 "a", .appendElement 1 "p" [], .alloc (.comment "b"), .append 1 5,
      .appendElement 1 "li" []]
    let edits' : List Edit := [.appendElement root "ul" [], .appendElement 1 "li" [],
      .appendElement 1 "p" [], .appendElement 1 "li" []]
    let t := after edits
    t.StandsBetween 4 ⟨"p", []⟩ [2, 3] [5, 6] ∧ t.tagsOf [2, 3] = (after edits').tagsOf [2] ∧
      ¬ PlainPseudo.firstChild.Selects ⟨t, 4, {}⟩ ∧ PlainPseudo.onlyOfType.Selects ⟨t, 4, {}⟩ ∧
      PlainPseudo.onlyOfType.Selects ⟨after edits', 3, {}⟩ ∧
      ∃! x, x ∈ t.children 1 ∧ PlainPseudo.firstChild.Selects ⟨t, x, {}⟩ := by
  intro edits edits' t
  obtain ⟨-, hposition, hunique, hsame⟩ := structural_by_position edits {}
  have h : t.StandsBetween 4 ⟨"p", []⟩ [2, 3] [5, 6] := ⟨by decide, 1, by decide⟩
  have h' : (after edits').StandsBetween 3 ⟨"p", []⟩ [2] [4] := ⟨by decide, 1, by decide⟩
  obtain ⟨hfirst, -, -, hfirstOfType, hlastOfType, honlyOfType⟩ := hposition 4 _ [2, 3] [5, 6] h
  have honly : PlainPseudo.onlyOfType.Selects ⟨t, 4, {}⟩ :=
    honlyOfType.2 ⟨hfirstOfType.2 (by decide), hlastOfType.2 (by decide)⟩
  refine ⟨h, by decide, fun hmatch => absurd (hfirst.1 hmatch) (by decide), honly, ?_, ?_⟩
  · exact (hsame edits' {} 4 3 _ _ _ _ _ _ h h' rfl (by decide) (by decide) .onlyOfType
      (by decide)).1 honly
  · exact (hunique 1 ⟨2, by decide, by decide⟩).1

end Tree

end BoxFlow
