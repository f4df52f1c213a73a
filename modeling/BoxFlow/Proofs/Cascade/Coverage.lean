import BoxFlow.Proofs.Cascade.Descent
import BoxFlow.Proofs.Dom.Order

/-!
# Which nodes have a style, and which one

Styles are computed on the way down from the document, through elements only, and not beyond a
number of levels. So an element or text has a style exactly if it is reached through elements and
does not lie too deep (`StyleInput.get?_styles_iff`), and its style is the one that its parent's
gives (`StyleInput.exists_parent_of_get?_styles`). In a tree that has grown by appending new nodes,
this makes the table of styles agree with the style of each single node
(`StyleInput.styles_cover`).
-/

set_option autoImplicit false

namespace BoxFlow

/-! ## The table -/

namespace StyleMap

variable {n : NodeId} {s : Style} {styles : List (NodeId × Style)}

/-- What a list has a style for, and what had one before, has one after the list. -/
theorem isSome_foldl {table : Array (Option Style)} (hn : n < table.size)
    (h : (n, s) ∈ styles ∨ (table[n]?.join).isSome) :
    ((styles.foldl (fun table entry => table.setIfInBounds entry.1 (some entry.2))
      table)[n]?.join).isSome := by
  induction styles generalizing table with
  | nil => exact h.resolve_left List.not_mem_nil
  | cons entry styles ih =>
    apply ih
    · rwa [Array.size_setIfInBounds]
    · rw [Array.getElem?_setIfInBounds]
      by_cases heq : entry.1 = n
      · right
        rw [if_pos heq, if_pos (heq ▸ hn)]
        rfl
      · rw [if_neg heq]
        rcases h with hmem | hsome
        · rcases List.mem_cons.1 hmem with rfl | hmem
          · exact absurd rfl heq
          · exact Or.inl hmem
        · exact Or.inr hsome

/-- A node to which a list gives one style only has that style. -/
theorem get?_ofList_of_mem {size : ℕ} (hn : n < size) (hmem : (n, s) ∈ styles)
    (hunique : ∀ s', (n, s') ∈ styles → s' = s) : (ofList size styles).get? n = some s := by
  have hsize : n < (Array.replicate size (none : Option Style)).size := by
    rwa [Array.size_replicate]
  obtain ⟨s', hs'⟩ := Option.isSome_iff_exists.1 (isSome_foldl hsize (Or.inl hmem))
  have hget : (ofList size styles).get? n = some s' := hs'
  rw [hget, hunique s' (mem_of_get?_ofList hget)]

end StyleMap

/-! ## The walk down -/

namespace StyleInput

variable {input : StyleInput} {c m n x : NodeId} {s above up : Style} {levels : ℕ}

/-- A walk starts with the node itself, if that takes a style. -/
theorem self_mem_stylesWithin (h : input.tree.TakesStyle c) (levels : ℕ) (above : Style) :
    (c, input.sheet.computed (input.subject c) above) ∈
      input.stylesWithin (levels + 1) above c :=
  mem_stylesWithin_succ.2 ⟨h, Or.inl ⟨rfl, rfl⟩⟩

/-- A walk that comes to an element goes on to its children, unless they lie too deep. -/
theorem child_mem_stylesWithin (h : input.tree.Ordered)
    (hm : (m, above) ∈ input.stylesWithin levels up c) (helement : (input.tree.element? m).isSome)
    (hx : x ∈ input.tree.children m) (htakes : input.tree.TakesStyle x)
    (hdepth : input.tree.depth x < input.tree.depth c + levels) :
    (x, input.sheet.computed (input.subject x) above) ∈ input.stylesWithin levels up c := by
  induction levels generalizing up c with
  | zero => exact absurd hm List.not_mem_nil
  | succ levels ih =>
    obtain ⟨hc, hm⟩ := mem_stylesWithin_succ.1 hm
    apply mem_stylesWithin_succ.2
    rcases hm with ⟨rfl, rfl⟩ | ⟨hc', c', hchild, hm⟩
    · -- the element is the node itself, and there is at least one more level
      have hlevel := h.depth_of_mem_children hx
      obtain ⟨levels, rfl⟩ : ∃ more, levels = more + 1 :=
        Nat.exists_eq_succ_of_ne_zero (by omega)
      exact ⟨hc, Or.inr ⟨helement, x, hx, self_mem_stylesWithin htakes levels _⟩⟩
    · have hlevel := h.depth_of_mem_children hchild
      exact ⟨hc, Or.inr ⟨hc', c', hchild, ih hm (by omega)⟩⟩

/-- A walk gives styles to elements and texts only, and not beyond its levels. -/
theorem takesStyle_of_mem_stylesWithin (h : input.tree.Ordered)
    (hn : (n, s) ∈ input.stylesWithin levels above c) :
    input.tree.TakesStyle n ∧ input.tree.depth n < input.tree.depth c + levels := by
  induction levels generalizing above c with
  | zero => exact absurd hn List.not_mem_nil
  | succ levels ih =>
    obtain ⟨hc, ⟨rfl, -⟩ | ⟨-, c', hchild, hn⟩⟩ := mem_stylesWithin_succ.1 hn
    · exact ⟨hc, by omega⟩
    · have hlevel := h.depth_of_mem_children hchild
      obtain ⟨htakes, hdepth⟩ := ih hn
      exact ⟨htakes, by omega⟩

/-- The styles listed for a tree are those of the elements and texts that are reached and do not lie
too deep. -/
theorem mem_styleList_iff (h : input.tree.Ordered) :
    (n, s) ∈ input.styleList ↔
      Reached input n s ∧ input.tree.TakesStyle n ∧ input.tree.depth n ≤ maxDepth := by
  have htop : ∀ c ∈ input.tree.children Tree.root, input.tree.depth c = 1 := by
    intro c hc
    rw [h.depth_of_mem_children hc, h.depth_root]
  constructor
  · intro hn
    obtain ⟨c, hc, hn⟩ := List.mem_flatMap.1 hn
    obtain ⟨htakes, hdepth⟩ := takesStyle_of_mem_stylesWithin h hn
    have hc1 := htop c hc
    exact ⟨reached_of_mem_stylesWithin (.top hc) hn, htakes, by omega⟩
  · -- along the way on which the node is reached: its parent is an element that does not lie deeper
    rintro ⟨hreached, htakes, hdepth⟩
    induction hreached with
    | top hc => exact List.mem_flatMap.2 ⟨_, hc, self_mem_stylesWithin htakes _ _⟩
    | child _ helement hc ih =>
      have hchild := h.depth_of_mem_children hc
      obtain ⟨c', hc', hm⟩ := List.mem_flatMap.1 (ih (Or.inl helement) (by omega))
      have hc1 := htop c' hc'
      refine List.mem_flatMap.2 ⟨c', hc', ?_⟩
      exact child_mem_stylesWithin h hm helement hc htakes (by omega)

theorem get?_styles_iff (h : input.tree.Ordered) :
    input.styles.get? n = some s ↔
      Reached input n s ∧ input.tree.TakesStyle n ∧ input.tree.depth n ≤ maxDepth := by
  rw [← mem_styleList_iff h]
  constructor
  · exact StyleMap.mem_of_get?_ofList
  · -- the list may have the node more than once, but never with another style
    intro hmem
    have hreached := ((mem_styleList_iff h).1 hmem).1
    obtain ⟨p, hp⟩ := (hreached.below_root h.linked).exists_parent
    apply StyleMap.get?_ofList_of_mem (Tree.lt_size_of_parent? hp) hmem
    intro s' hmem'
    exact ((mem_styleList_iff h).1 hmem').1.unique h.linked hreached

namespace Reached

/-- What is reached has the document or a reached element as its parent, and the style that this one
gives. -/
theorem exists_parent (h : input.tree.Linked) (hn : Reached input n s) :
    ∃ p above, input.tree.parent? n = some p ∧
      s = input.sheet.computed (input.subject n) above ∧
      ((p = Tree.root ∧ above = .empty) ∨
        (Reached input p above ∧ (input.tree.element? p).isSome)) := by
  cases hn with
  | top hc => exact ⟨_, _, (h.mem_children_iff _ _).1 hc, rfl, Or.inl ⟨rfl, rfl⟩⟩
  | child hm helement hc =>
    exact ⟨_, _, (h.mem_children_iff _ _).1 hc, rfl, Or.inr ⟨hm, helement⟩⟩

/-- Above what is reached there are only elements and the document. -/
theorem eq_root_or_element {a : NodeId} (h : input.tree.Ordered) (hn : Reached input n s)
    (ha : input.tree.Above a n) : a = Tree.root ∨ (input.tree.element? a).isSome := by
  induction hn with
  | top hc =>
    rcases ha.eq_or_above ((h.linked.mem_children_iff _ _).1 hc) with rfl | ha
    · exact Or.inl rfl
    · exact absurd (h.lt_of_above ha) (Nat.not_lt_zero a)
  | child _ helement hc ih =>
    rcases ha.eq_or_above ((h.linked.mem_children_iff _ _).1 hc) with rfl | ha
    · exact Or.inr helement
    · exact ih ha

end Reached

/-- Below the document, a node under elements only is reached. -/
theorem exists_reached (h : input.tree.Linked) (hn : input.tree.Above Tree.root n)
    (habove : ∀ a, input.tree.Above a n → a = Tree.root ∨ (input.tree.element? a).isSome) :
    ∃ s, Reached input n s := by
  induction hn with
  | parent hp => exact ⟨_, .top ((h.mem_children_iff _ _).2 hp)⟩
  | @up p _ hp _ ih =>
    have hc := (h.mem_children_iff _ _).2 hp
    -- a parent that is the document starts the way anew
    rcases habove p (.parent hp) with rfl | helement
    · exact ⟨_, .top hc⟩
    · obtain ⟨above, hreached⟩ := ih fun a ha => habove a (.up hp ha)
      exact ⟨_, .child hreached helement hc⟩

theorem get?_styles_root (h : input.tree.Ordered) : input.styles.get? Tree.root = none := by
  rw [Option.eq_none_iff_forall_ne_some]
  intro s hs
  have hreached := ((get?_styles_iff h).1 hs).1
  exact Nat.lt_irrefl _ (h.lt_of_above (hreached.below_root h.linked))

/-- A style is what the parent of the node gives: the document says nothing, and any other parent
has a style itself. -/
theorem exists_parent_of_get?_styles (h : input.tree.Ordered)
    (hs : input.styles.get? n = some s) :
    ∃ p above, input.tree.parent? n = some p ∧
      ((p = Tree.root ∧ above = .empty) ∨
        (p ≠ Tree.root ∧ input.styles.get? p = some above)) ∧
      s = input.sheet.computed (input.subject n) above := by
  obtain ⟨hreached, -, hdepth⟩ := (get?_styles_iff h).1 hs
  obtain ⟨p, above, hp, hcomputed, hparent⟩ := hreached.exists_parent h.linked
  refine ⟨p, above, hp, ?_, hcomputed⟩
  rcases hparent with hroot | ⟨hreached', helement⟩
  · exact Or.inl hroot
  · -- the parent lies one level higher, so it has a style, too
    have hchild := h.depth_of_parent? hp
    have hsome : input.styles.get? p = some above :=
      (get?_styles_iff h).2 ⟨hreached', Or.inl helement, by omega⟩
    refine Or.inr ⟨?_, hsome⟩
    rintro rfl
    rw [get?_styles_root h] at hsome
    cases hsome

/-- In a tree that comes from a description, or has grown by appending new nodes, the nodes with a
style are the elements and texts that lie below the document, at most 256 levels deep, with nothing
but elements between. The style of such an element is that of the single node, given the style of
its parent, which says nothing if the parent is the document. The style of such a text has the
inherited properties of its parent, and no others. -/
theorem styles_cover (htree : input.tree.Grown) (n : NodeId) :
    ((input.styles.get? n).isSome ↔
      ((input.tree.element? n).isSome ∨ (input.tree.text? n).isSome) ∧
        input.tree.Above Tree.root n ∧ 1 ≤ input.tree.depth n ∧ input.tree.depth n ≤ 256 ∧
        ∀ a, input.tree.Above a n → a = Tree.root ∨ (input.tree.element? a).isSome) ∧
      ∀ s, input.styles.get? n = some s →
        ∃ p above, input.tree.parent? n = some p ∧
          ((p = Tree.root ∧ above = .empty) ∨
            (p ≠ Tree.root ∧ input.styles.get? p = some above)) ∧
          ((input.tree.element? n).isSome →
            s = input.sheet.computed (input.subject n) above) ∧
          ((input.tree.text? n).isSome → ∀ q,
            s.get? q = if q ∈ inheritedProperties then above.get? q else none) := by
  have h := htree.ordered
  constructor
  · rw [Option.isSome_iff_exists]
    constructor
    · rintro ⟨s, hs⟩
      obtain ⟨hreached, htakes, hdepth⟩ := (get?_styles_iff h).1 hs
      have hbelow := hreached.below_root h.linked
      obtain ⟨p, hp⟩ := hbelow.exists_parent
      have hchild := h.depth_of_parent? hp
      exact ⟨htakes, hbelow, by omega, hdepth, fun a ha => hreached.eq_root_or_element h ha⟩
    · rintro ⟨htakes, hbelow, -, hdepth, habove⟩
      obtain ⟨s, hreached⟩ := exists_reached h.linked hbelow habove
      exact ⟨s, (get?_styles_iff h).2 ⟨hreached, htakes, hdepth⟩⟩
  · intro s hs
    obtain ⟨p, above, hp, hparent, hcomputed⟩ := exists_parent_of_get?_styles h hs
    refine ⟨p, above, hp, hparent, fun _ => hcomputed, ?_⟩
    intro htext q
    rw [hcomputed, Stylesheet.computed_eq_inheritedOnly (Tree.element?_eq_none_of_text? htext),
      Style.get?_inheritedOnly]

/-- A text in a `p` takes its color and not its margin, and what lies under a comment has no
style. -/
theorem styles_cover_text :
    let tree := ((((Tree.empty.appendNew Tree.root (.element ⟨"p", []⟩)).1.appendNew 1
      (.text "hi")).1.appendNew 1 (.comment "a")).1.appendNew 3 (.text "b")).1
    let sheet : Stylesheet :=
      ⟨[⟨"p", { tag := "p" }, (Block.empty.set "color" "green").set "margin-top" "4px"⟩]⟩
    let input : StyleInput := { tree, sheet }
    let text := Style.ofPairs [("color", "green")]
    tree.Grown ∧ input.styles.get? 2 = some text ∧ input.styles.get? 4 = none ∧
      text.get? "color" = some "green" ∧ text.get? "margin-top" = none := by
  intro tree sheet input text
  have htree : tree.Grown :=
    .appendNew _ _ (.appendNew _ _ (.appendNew _ _ (.appendNew _ _ .empty)))
  have htext : input.styles.get? 2 = some text := by decide +kernel
  have hunder : input.styles.get? 4 = none := by
    rw [← Option.not_isSome_iff_eq_none, (styles_cover htree 4).1]
    rintro ⟨-, -, -, -, habove⟩
    have hcomment := habove 3 (.parent (by decide))
    exact absurd hcomment (by decide)
  obtain ⟨p, above, -, -, -, hinherited⟩ := (styles_cover htree 2).2 text htext
  refine ⟨htree, htext, hunder, by decide, ?_⟩
  rw [hinherited (by decide)]
  rfl

end StyleInput

end BoxFlow
