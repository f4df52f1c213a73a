import BoxFlow.Proofs.Dom.Planting
import BoxFlow.Proofs.Layout.Reading

/-!
# The depth limit of a layout

The layout of a document does not get to nodes deeper than `maxDepth` (`Page.depth_le_of_laysOut`).
So a deeper text has no influence on it, unless an element that is laid out reads that text
(`Page.document_ignores_deep_texts`). Such elements exist, because reading asks for no levels: a
paragraph shows a text however many elements there are around it (`Page.ink_document_paragraph`).
-/

set_option autoImplicit false

namespace BoxFlow

/-! ## Elements within each other -/

namespace Spec

theorem depth_toTree (spec : Spec) : spec.toTree.depth 1 = 1 := by
  have hordered := spec.planted_toTree.ordered
  have hroot : 1 ∈ spec.toTree.children Tree.root := by
    rw [children_root_toTree]
    exact List.mem_singleton_self 1
  rw [hordered.depth_of_mem_children hroot, hordered.depth_root]

/-- A description within elements that hold nothing else, the outermost first. -/
def wrapped (tags : List String) (inner : Spec) : Spec :=
  tags.foldr (fun tag spec => .element tag [] [spec]) inner

theorem skeleton_wrapped (tags : List String) {inner inner' : Spec}
    (h : inner'.skeleton = inner.skeleton) :
    (wrapped tags inner').skeleton = (wrapped tags inner).skeleton := by
  induction tags with
  | nil => exact h
  | cons tag tags ih =>
    show Spec.element tag [] [(wrapped tags inner').skeleton] =
      Spec.element tag [] [(wrapped tags inner).skeleton]
    rw [ih]

theorem nodeKinds_wrapped (tags : List String) (inner : Spec) :
    (wrapped tags inner).nodeKinds =
      tags.map (fun tag => .element (.ofWritten tag [])) ++ inner.nodeKinds := by
  induction tags with
  | nil => rfl
  | cons tag tags ih =>
    show NodeKind.element (.ofWritten tag []) :: ((wrapped tags inner).nodeKinds ++ []) = _
    rw [ih, List.append_nil]
    rfl

/-- The only text is behind all the elements. -/
theorem text?_wrapped (tags : List String) (content : String) (id : ℕ) :
    (wrapped tags (.text content)).toTree.text? id =
      if id = tags.length + 1 then some content else none := by
  rw [Tree.text?, kind_toTree, nodeKinds_wrapped]
  cases id with
  | zero => rfl
  | succ id =>
    rw [List.getElem?_cons_succ, nodeKinds]
    rcases Nat.lt_trichotomy id tags.length with hlt | rfl | hgt
    · rw [List.getElem?_append_left (by simpa using hlt), List.getElem?_map, if_neg (by omega),
        List.getElem?_eq_getElem hlt]
      rfl
    · rw [List.getElem?_append_right (by simp), if_pos rfl, List.length_map, Nat.sub_self]
      rfl
    · rw [List.getElem?_eq_none (by simp; omega), if_neg (by omega)]

theorem eq_of_text?_wrapped_ne {tags : List String} {content content' : String} {id : ℕ}
    (hne : (wrapped tags (.text content')).toTree.text? id ≠
      (wrapped tags (.text content)).toTree.text? id) : id = tags.length + 1 := by
  by_contra hid
  rw [text?_wrapped, text?_wrapped, if_neg hid, if_neg hid] at hne
  exact hne rfl

theorem exists_tag_of_element?_wrapped {tags : List String} {content : String} {id : NodeId}
    {e : Element} (he : (wrapped tags (.text content)).toTree.element? id = some e) :
    ∃ tag ∈ tags, e = .ofWritten tag [] := by
  have hkind := Tree.kind_of_element? he
  rw [kind_toTree, nodeKinds_wrapped] at hkind
  have hmem := List.mem_of_getElem? hkind
  simpa [nodeKinds, eq_comm] using hmem

end Spec

namespace Tree

variable {t : Tree} {n : ℕ} {tag : String} {tags : List String} {inner : Spec}

/-- An element that holds one thing has it as its only child. -/
theorem HoldsFrom.of_wrapped_cons (h : t.HoldsFrom n (Spec.wrapped (tag :: tags) inner)) :
    t.element? n = some (.ofWritten tag []) ∧ t.children n = [n + 1] ∧
      t.HoldsFrom (n + 1) (Spec.wrapped tags inner) := by
  obtain ⟨hkind, hchildren, hinner, -⟩ := h
  exact ⟨by rw [element?, hkind], hchildren, hinner⟩

/-- Each element around a node makes it one level deeper. -/
theorem HoldsFrom.depth_wrapped (h : t.Ordered) (hn : t.HoldsFrom n (Spec.wrapped tags inner)) :
    t.depth (n + tags.length) = t.depth n + tags.length := by
  induction tags generalizing n with
  | nil => rfl
  | cons tag tags ih =>
    obtain ⟨-, hchildren, hinner⟩ := hn.of_wrapped_cons
    have hdepth := h.depth_of_mem_children (p := n) (c := n + 1) (by rw [hchildren]; simp)
    have hlater := ih hinner
    rw [List.length_cons, Nat.add_comm tags.length 1, ← Nat.add_assoc, hlater, hdepth]
    omega

/-- The text within some elements is one level below them. -/
theorem depth_wrapped (tags : List String) (content : String) :
    (Spec.wrapped tags (.text content)).toTree.depth (tags.length + 1) = tags.length + 1 := by
  have hordered := (Spec.wrapped tags (.text content)).planted_toTree.ordered
  have hdepth := (Spec.wrapped tags (.text content)).toTree_holdsFrom.2.depth_wrapped hordered
  rw [Nat.add_comm tags.length, hdepth, Spec.depth_toTree]

end Tree

namespace Page

variable {page : Page} {id n : NodeId}

/-! ## The depth of what is laid out -/

/-- Each level gets one step further down. -/
theorem depth_lt_of_reaches (h : page.tree.Ordered) {levels : ℕ}
    (hn : page.Reaches levels id n) : page.tree.depth n < page.tree.depth id + levels := by
  induction hn with
  | self => omega
  | child _ hc _ ih =>
    rw [h.depth_of_mem_children hc] at ih
    omega

/-- The layout of a document does not get past the depth limit. -/
theorem depth_le_of_laysOut (h : page.tree.Ordered) (hn : page.LaysOut n) :
    page.tree.depth n ≤ maxDepth := by
  obtain ⟨c, hc, hn⟩ := hn
  have hdepth := depth_lt_of_reaches h hn
  rw [documentLevels_eq h] at hn hdepth
  rw [h.depth_of_mem_children hc] at hdepth
  -- below a start that is too deep nothing is laid out at all
  rcases Nat.lt_or_ge (page.tree.depth page.start) maxDepth with hstart | hstart
  · omega
  · rw [Nat.sub_eq_zero_of_le hstart] at hn
    cases hn

/-- Two pages with trees of one shape that differ only in texts below the depth limit, none of
which is read by an element that is laid out, have the same layout. -/
theorem document_ignores_deep_texts {spec spec' : Spec} (htree : page.tree = spec.toTree)
    (hshape : spec'.skeleton = spec.skeleton)
    (hdeep : ∀ n, spec'.toTree.text? n ≠ spec.toTree.text? n →
      maxDepth < spec.toTree.depth n ∧ ¬ page.IsRead n) (size : CanvasSize) :
    (page.withTree spec'.toTree).document size = page.document size := by
  have hordered : page.tree.Ordered := htree ▸ spec.planted_toTree.ordered
  rw [← htree] at hdeep
  apply document_withTree_of_reads (htree ▸ Spec.sameShape_toTree hshape)
  rintro n (hn | hn)
  · -- what is laid out is not deep enough to differ
    by_contra hne
    exact Nat.not_le_of_lt (hdeep n hne).1 (depth_le_of_laysOut hordered hn)
  · by_contra hne
    exact (hdeep n hne).2 hn

/-- Other elements than list items, paragraphs and tables read a text from directly above it only.
So there a text is not read if it is two levels below the limit. -/
theorem not_isRead_of_boxes (h : page.tree.Ordered)
    (hboxes : ∀ tag ∈ ["li", "p", "table"], ∀ id, ¬ page.tree.isTag id tag)
    (hdeep : maxDepth + 1 < page.tree.depth n) : ¬ page.IsRead n := by
  rintro ⟨id, hid, -, hreads⟩
  cases hreads with
  | leading _ _ hfirst =>
    have hle := depth_le_of_laysOut h hid
    rw [h.depth_of_mem_children (List.mem_of_mem_head? hfirst)] at hdeep
    omega
  | borrowed htag => exact hboxes "li" (by simp) id htag
  | paragraph htag => exact hboxes "p" (by simp) id htag
  | separator htag => exact hboxes "table" (by simp) id htag
  | cell htag => exact hboxes "table" (by simp) id htag

/-- So a text within enough boxes is not read. -/
theorem deep_text_of_boxes {tags : List String} {content content' : String}
    (hboxes : ∀ tag ∈ tags, (Element.ofWritten tag []).tag ∉ ["li", "p", "table"])
    (hlength : maxDepth < tags.length)
    (hne : (Spec.wrapped tags (.text content')).toTree.text? n ≠
      (Spec.wrapped tags (.text content)).toTree.text? n) :
    maxDepth < (Spec.wrapped tags (.text content)).toTree.depth n ∧
      ¬ IsRead { tree := (Spec.wrapped tags (.text content)).toTree } n := by
  obtain rfl := Spec.eq_of_text?_wrapped_ne hne
  have hdepth := Tree.depth_wrapped tags content
  refine ⟨by omega, not_isRead_of_boxes (Spec.planted_toTree _).ordered ?_ ?_⟩
  · intro tag hmem id htag
    rw [Tree.isTag, Tree.tag?, beq_iff_eq, Option.map_eq_some_iff] at htag
    obtain ⟨e, he, rfl⟩ := htag
    obtain ⟨tag, htag, rfl⟩ := Spec.exists_tag_of_element?_wrapped he
    exact hboxes tag htag hmem
  · show maxDepth + 1 < (Spec.wrapped tags (.text content)).toTree.depth (tags.length + 1)
    omega

/-- A text in boxes that are too deep may change. -/
theorem document_ignores_text_in_deep_box :
    let tags := List.replicate (maxDepth + 1) "div"
    let spec := Spec.wrapped tags (.text "a")
    let spec' := Spec.wrapped tags (.text "b")
    let page : Page := { tree := spec.toTree }
    spec'.skeleton = spec.skeleton ∧
      spec'.toTree.text? (maxDepth + 2) ≠ spec.toTree.text? (maxDepth + 2) ∧
      (∀ n, spec'.toTree.text? n ≠ spec.toTree.text? n →
        maxDepth < spec.toTree.depth n ∧ ¬ page.IsRead n) ∧
      (page.withTree spec'.toTree).document {} = page.document {} := by
  intro tags spec spec' page
  have hlength : tags.length = maxDepth + 1 := List.length_replicate
  have hshape : spec'.skeleton = spec.skeleton := Spec.skeleton_wrapped tags rfl
  have hboxes : ∀ tag ∈ tags, (Element.ofWritten tag []).tag ∉ ["li", "p", "table"] := by
    intro tag htag
    rw [List.eq_of_mem_replicate htag]
    decide
  have hne : spec'.toTree.text? (maxDepth + 2) ≠ spec.toTree.text? (maxDepth + 2) := by
    rw [Spec.text?_wrapped, Spec.text?_wrapped, hlength, if_pos rfl]
    decide
  have hdeep : ∀ n, spec'.toTree.text? n ≠ spec.toTree.text? n →
      maxDepth < spec.toTree.depth n ∧ ¬ page.IsRead n :=
    fun _ hne => deep_text_of_boxes hboxes (by omega) hne
  have htree : page.tree = spec.toTree := by
    dsimp only [page]
  exact ⟨hshape, hne, hdeep, document_ignores_deep_texts htree hshape hdeep {}⟩

/-! ## Texts that are read below the limit -/

/-- The pieces of an element that holds a text within other elements are that text. -/
theorem piecesWithin_wrapped {limit n : ℕ} {tag content : String} {tags : List String}
    (hn : page.tree.HoldsFrom n (Spec.wrapped (tag :: tags) (.text content)))
    (hlimit : tags.length < limit) (hbreak : ∀ tag ∈ tags, (Element.ofWritten tag []).tag ≠ "br")
    (hshown : ∀ id, page.isHidden id = false) :
    page.piecesWithin limit n = [.text content] := by
  induction limit generalizing n tag tags with
  | zero => exact absurd hlimit (Nat.not_lt_zero _)
  | succ limit ih =>
    obtain ⟨-, hchildren, hinner⟩ := hn.of_wrapped_cons
    rw [piecesWithin, hchildren, List.flatMap_singleton]
    cases tags with
    | nil => rw [hinner.1]
    | cons tag tags =>
      obtain ⟨hfirst, hrest⟩ := List.forall_mem_cons.1 hbreak
      have hpieces := ih hinner (by simpa using hlimit) hrest
      rw [hinner.1, hpieces]
      simp only [if_neg hfirst, hshown]
      rfl

/-- A paragraph that is laid out draws its pieces. -/
theorem ink_place_paragraph {levels : ℕ} {e : Element}
    (hkind : (page.tree.get? id).map Node.kind = some (.element e)) (htag : e.tag = "p")
    (hshown : page.isHidden id = false) (zone : Zone) (inline : Bool) :
    Command.ink (page.place (levels + 1) id zone inline).commands =
      (page.piecesWithin page.tree.size id).flatMap fun piece => Text.ink piece.chars := by
  have hcontent : page.content id e = page.paragraph id := by
    funext s zone
    rw [content, htag]
    rfl
  rw [place, hkind]
  show Command.ink (page.element _ id e zone inline).commands = _
  rw [element, hshown, if_neg Bool.false_ne_true, shownElement, hcontent]
  simp only [Draw.commands_bind, Command.ink_append, ink_paragraph]
  exact List.append_nil _

/-- A body that is the only child of the document is found. -/
theorem body?_toTree_body (attributes : List (String × String)) (children : List Spec) :
    (Spec.element "body" attributes children).toTree.body? = some 1 := by
  have hroot := (Spec.element "body" attributes children).planted_toTree.linked.element?_root
  have hbody : (Spec.element "body" attributes children).toTree.element? 1 =
      some (.ofWritten "body" attributes) := by
    rw [Tree.element?, Spec.kind_toTree]
    rfl
  rw [Tree.body?, Tree.findTag?, Spec.size_toTree, Spec.size_element, Tree.findTagWithin,
    List.find?_singleton, Tree.tag?, hroot, List.flatMap_singleton, Spec.children_root_toTree]
  have hsame : Text.sameIgnoringCase (Element.ofWritten "body" attributes).tag "body" = true := by
    show Text.sameIgnoringCase (Text.lowercase "body") "body" = true
    decide +kernel
  show Tree.findTagWithin _ "body" _ [1] = some 1
  rw [Tree.findTagWithin, List.find?_singleton, Tree.tag?, hbody, Option.map_some,
    Option.any_some, if_pos hsame]

/-- A paragraph in the body shows a text within any number of elements. -/
theorem ink_document_paragraph {tags : List String} {content : String}
    (htree : page.tree = (Spec.wrapped ("body" :: "p" :: tags) (.text content)).toTree)
    (hbreak : ∀ tag ∈ tags, (Element.ofWritten tag []).tag ≠ "br")
    (hshown : ∀ id, page.isHidden id = false) (size : CanvasSize) :
    Command.ink (page.document size).commands = Text.ink content.toList := by
  have hordered : page.tree.Ordered := htree ▸ (Spec.planted_toTree _).ordered
  have hbody : page.tree.HoldsFrom 1 (Spec.wrapped ("body" :: "p" :: tags) (.text content)) :=
    htree ▸ (Spec.toTree_holdsFrom _).2
  obtain ⟨-, hchildren, hparagraph⟩ := hbody.of_wrapped_cons
  have hstart : page.start = 1 := by
    rw [start, htree]
    exact congrArg (Option.getD · Tree.root) (body?_toTree_body [] _)
  have hlevels : page.documentLevels = 254 + 1 := by
    rw [documentLevels_eq hordered, hstart, htree, Spec.depth_toTree]
    rfl
  have hflowing : page.flowingChildren page.start false = [2] := by
    have hcomment : page.tree.isComment 2 = false := by rw [Tree.isComment, hparagraph.1]
    rw [flowingChildren, hstart, hchildren]
    simp [hcomment]
  have hplace : ∀ c ∈ page.tree.children page.start, ∀ zone inline,
      Command.ink (page.place page.documentLevels c zone inline).commands =
        Text.ink content.toList := by
    rw [hstart, hchildren, hlevels]
    intro c hc zone inline
    obtain rfl := List.mem_singleton.1 hc
    have hsize : tags.length < page.tree.size := by
      rw [htree, Spec.size_toTree, Spec.size, Spec.nodeKinds_wrapped]
      simp only [List.length_append, List.length_map, List.length_cons]
      omega
    rw [ink_place_paragraph hparagraph.1 (by decide +kernel) (hshown 2),
      piecesWithin_wrapped hparagraph hsize hbreak hshown, List.flatMap_singleton]
    rfl
  rw [ink_document_of_place hplace, hflowing, List.flatMap_singleton]

/-- A paragraph shows a text that is deeper than the limit. -/
theorem document_shows_text_below_limit :
    let tags := "body" :: "p" :: List.replicate maxDepth "b"
    let spec := Spec.wrapped tags (.text "a")
    let spec' := Spec.wrapped tags (.text "b")
    let page : Page := { tree := spec.toTree }
    spec'.skeleton = spec.skeleton ∧
      (∀ n, spec'.toTree.text? n ≠ spec.toTree.text? n → maxDepth < spec.toTree.depth n) ∧
      ((page.withTree spec'.toTree).document {}).commands ≠ (page.document {}).commands := by
  intro tags spec spec' page
  have hlength : tags.length = maxDepth + 2 := by
    rw [List.length_cons, List.length_cons, List.length_replicate]
  have hbreak : ∀ tag ∈ List.replicate maxDepth "b", (Element.ofWritten tag []).tag ≠ "br" := by
    intro tag htag
    rw [List.eq_of_mem_replicate htag]
    decide
  have hshown : ∀ id, page.isHidden id = false := by
    intro id
    show Style.empty.isHidden = false
    decide +kernel
  refine ⟨Spec.skeleton_wrapped tags rfl, ?_, ?_⟩
  · intro n hne
    rw [Spec.eq_of_text?_wrapped_ne hne, Tree.depth_wrapped]
    omega
  · have htree : page.tree = spec.toTree := by dsimp only [page]
    have htree' : (page.withTree spec'.toTree).tree = spec'.toTree := tree_withTree page _
    have hshown' : ∀ id, (page.withTree spec'.toTree).isHidden id = false := by
      rw [isHidden_withTree]
      exact hshown
    have hink : Command.ink (page.document {}).commands = ['a'] :=
      ink_document_paragraph htree hbreak hshown {}
    have hink' : Command.ink ((page.withTree spec'.toTree).document {}).commands = ['b'] :=
      ink_document_paragraph htree' hbreak hshown' {}
    intro heq
    rw [heq, hink] at hink'
    exact absurd hink' (by decide)

end Page

end BoxFlow
