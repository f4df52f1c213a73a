import BoxFlow.Layout.Document
import BoxFlow.Proofs.Dom.History
import BoxFlow.Proofs.Dom.Subtree
import BoxFlow.Proofs.Text.Numerals

/-!
# The numbers of ordered lists

The items of an ordered list are counted from the number in its start attribute, or from one. Texts,
comments and other elements between them do not count. Since no child stands twice in a list, the
place of an item among the items is how many it is behind the first one (`Tree.marker?_item`).

The number of the first item fits in 64 bits, and that of an item behind it need not. A layout that
comes to such an item fails, and it fails nowhere else (`Page.overflow_listItem`,
`Page.overflow_document`): what is laid out is followed through by the shape of the functions, lists
by induction, and nodes by induction on the levels. So for every tree and every list it can be said
which items are numbered without failing (`Tree.items_count_from_start`).
-/

set_option autoImplicit false

namespace BoxFlow

/-! ## Where a layout fails -/

theorem BoxExtent.overflow_draw (s : Style) (zone : Zone) (maxHeight maxWidth : Option Float32) :
    (BoxExtent.draw s zone maxHeight maxWidth).overflow = none := rfl

namespace Page

variable {page : Page}

@[simp] theorem overflow_drawText (page : Page) (s : Style) (text : List Char) (x y : Float32) :
    (page.drawText s text x y).overflow = none := by
  rw [drawText]
  split
  · rfl
  · rfl

@[simp] theorem overflow_drawLines (page : Page) (s : Style) (x y : Float32)
    (lines : List (List Char)) : (page.drawLines s x y lines).overflow = none := by
  induction lines generalizing y with
  | nil => rfl
  | cons line lines ih => rw [drawLines, Draw.overflow_bind, overflow_drawText, ih, Option.none_or]

theorem overflow_layoutText (page : Page) (id : NodeId) (content : String) (zone : Zone)
    (inline : Bool) : (page.layoutText id content zone inline).overflow = none := by
  rw [layoutText]
  split
  · rfl
  · split
    · exact overflow_drawText ..
    · simp

theorem overflow_inlineBox (page : Page) (id : NodeId) (s : Style) (zone : Zone) :
    (page.inlineBox id s zone).overflow = none := by
  simp [inlineBox, BoxExtent.overflow_draw]

theorem overflow_blockBox (page : Page) (id : NodeId) (s : Style) (zone : Zone) :
    (page.blockBox id s zone).overflow = none := by
  simp [blockBox, BoxExtent.overflow_draw]

theorem overflow_paragraph (page : Page) (id : NodeId) (s : Style) (zone : Zone) :
    (page.paragraph id s zone).overflow = none := by
  simp [paragraph, BoxExtent.overflow_draw]

theorem overflow_picture (page : Page) (e : Element) (zone : Zone) :
    (page.picture e zone).overflow = none := by
  rw [picture]
  split
  · rfl
  · simp only [Draw.overflow_bind, Draw.overflow_warn, Option.none_or]
    split
    · rfl
    · rfl

theorem overflow_drawMarker (page : Page) (s : Style) (zone : Zone) (marker : Option Marker) :
    (page.drawMarker s zone marker).overflow = none := by
  unfold drawMarker
  split
  · rfl
  · split
    · rfl
    · rfl
    · simp

/-- Laying out an item fails if its number leaves the range, and only then. -/
theorem overflow_listItem (page : Page) (id : NodeId) (s : Style) (zone : Zone) :
    (page.listItem id s zone).overflow =
      if (page.tree.marker? id).all Marker.fits then none else some .addition := by
  simp only [listItem, Draw.overflow_bind, Draw.overflow_require, overflow_drawMarker,
    Option.none_or]
  by_cases hfits : (page.tree.marker? id).all Marker.fits
  · rw [if_pos hfits, Option.none_or]
    split
    · rfl
    · simp
  · rw [if_neg hfits, Option.some_or]

theorem overflow_drawCells (page : Page) (zone : Zone) (x tallest : Float32)
    (cells : List NodeId) : (page.drawCells zone x tallest cells).overflow = none := by
  induction cells generalizing x tallest with
  | nil => rfl
  | cons cell cells ih => simp [drawCells, drawCell, BoxExtent.overflow_draw, ih]

theorem overflow_drawRows (page : Page) (zone : Zone) (y : Float32) (rows : List NodeId) :
    (page.drawRows zone y rows).overflow = none := by
  induction rows generalizing y with
  | nil => rfl
  | cons row rows ih => simp [drawRows, overflow_drawCells, ih]

theorem overflow_table (page : Page) (id : NodeId) (zone : Zone) :
    (page.table id zone).overflow = none := by
  rw [table]
  split
  · rfl
  · simp [overflow_drawRows]

/-- Of what elements draw of themselves, only the markers of items can fail. -/
theorem overflow_content (page : Page) (id : NodeId) (e : Element) (s : Style) (zone : Zone) :
    (page.content id e s zone).overflow =
      if e.tag = "li" then if (page.tree.marker? id).all Marker.fits then none else some .addition
      else none := by
  rw [content]
  split
  · next htag => rw [htag]; exact overflow_paragraph page id s zone
  · next htag => rw [htag]; exact overflow_picture page e zone
  · next htag => rw [htag]; rfl
  · next htag => rw [htag]; rfl
  · next htag => rw [htag]; exact overflow_listItem page id s zone
  · next htag => rw [htag]; exact overflow_table page id zone
  · next hli _ =>
    rw [if_neg hli]
    split
    · exact overflow_inlineBox page id s zone
    · exact overflow_blockBox page id s zone

section Flow

variable {place : Placement} (hplace : ∀ id zone inline, (place id zone inline).overflow = none)

include hplace

theorem overflow_flow (page : Page) (zone : Zone) (parentInline : Bool) (cursor : FlowCursor)
    (children : List NodeId) :
    (page.flow place zone parentInline cursor children).overflow = none := by
  induction children generalizing cursor with
  | nil => rfl
  | cons child children ih =>
    simp only [flow, Draw.overflow_bind, hplace, ih, Option.or_none]

theorem overflow_flowChildren (page : Page) (id : NodeId) (zone : Zone) (skipFirstText : Bool) :
    (page.flowChildren place id zone skipFirstText).overflow = none := by
  simp only [flowChildren, Draw.overflow_bind, overflow_flow hplace, Draw.overflow_pure,
    Option.or_none]

end Flow

theorem overflow_shownElement {place : Placement} {id : NodeId} {e : Element}
    (hplace : ∀ id zone inline, (place id zone inline).overflow = none)
    (hcontent : ∀ zone, (page.content id e (page.style id) zone).overflow = none) (zone : Zone)
    (inline : Bool) : (page.shownElement place id e zone inline).overflow = none := by
  simp only [shownElement, Draw.overflow_bind, hcontent, Option.none_or]
  split
  · rfl
  · simp only [Draw.overflow_bind, overflow_flowChildren hplace, Draw.overflow_pure, Option.or_none]

/-- An element that is shown fails if what it draws of itself does. -/
theorem overflow_shownElement_of_content {place : Placement} {id : NodeId} {e : Element}
    (h : ∀ zone, (page.content id e (page.style id) zone).overflow = some .addition) (zone : Zone)
    (inline : Bool) : (page.shownElement place id e zone inline).overflow = some .addition := by
  simp only [shownElement, Draw.overflow_bind, h, Option.some_or]

/-- Where the numbers of all items are in range, nothing fails. -/
theorem overflow_place
    (h : ∀ id, page.tree.isTag id "li" → (page.tree.marker? id).all Marker.fits)
    (levels : Nat) (id : NodeId) (zone : Zone) (inline : Bool) :
    (page.place levels id zone inline).overflow = none := by
  induction levels generalizing id zone inline with
  | zero => rfl
  | succ levels ih =>
    rw [place]
    split
    · next e he =>
      rw [element]
      split
      · rfl
      · refine overflow_shownElement ih (fun zone => ?_) zone inline
        -- only an item can fail by itself, and its number is in range
        rw [overflow_content]
        by_cases htag : e.tag = "li"
        · rw [if_pos htag, if_pos (h id ((Tree.isTag_iff he "li").2 htag))]
        · exact if_neg htag
    · exact overflow_layoutText page id _ zone inline
    · exact overflow_flowChildren ih page id zone false
    · rfl

theorem overflow_document
    (h : ∀ id, page.tree.isTag id "li" → (page.tree.marker? id).all Marker.fits)
    (size : CanvasSize) : (page.document size).overflow = none := by
  have hcontent : (page.documentContent size).overflow = none := by
    rw [documentContent]
    split
    · exact overflow_flowChildren (overflow_place h _) page _ _ _
    · exact overflow_flowChildren (overflow_place h _) page _ _ _
  simp only [document, Draw.overflow_bind, Draw.overflow_draw, hcontent, Draw.overflow_pure,
    Option.or_none]

/-- An item that is shown fails if its number is out of range. -/
theorem overflow_place_item {e : Element} {id : NodeId} (he : page.tree.element? id = some e)
    (htag : e.tag = "li") (hshown : page.isHidden id = false)
    (hnumber : (page.tree.marker? id).all Marker.fits = false) (levels : Nat) (zone : Zone)
    (inline : Bool) : (page.place (levels + 1) id zone inline).overflow = some .addition := by
  have hcontent : ∀ zone, (page.content id e (page.style id) zone).overflow = some .addition := by
    intro zone
    rw [overflow_content, htag, hnumber]
    rfl
  rw [place, Tree.kind_of_element? he]
  show (page.element (page.place levels) id e zone inline).overflow = some .addition
  rw [element, if_neg (by rw [hshown]; exact Bool.false_ne_true)]
  exact overflow_shownElement_of_content hcontent zone inline

end Page

/-! ## The number of an item -/

namespace Element

variable {e : Element} {n start : ℤ}

/-- The start attribute says a number: trimmed, it is a numeral, and its number fits in 64 bits. -/
def SaysStart (e : Element) (n : ℤ) : Prop :=
  ∃ text, e.attribute? "start" = some text ∧
    Text.IsNumeral (Text.trim text.toList) n ∧ Text.isInt64 n

/-- The number of the first item: what the start attribute says, and one where it says nothing. -/
def StartsAt (e : Element) (start : ℤ) : Prop :=
  e.SaysStart start ∨ (¬ ∃ n, e.SaysStart n) ∧ start = 1

theorem saysStart_iff :
    e.SaysStart n ↔ ((e.attribute? "start").bind fun text =>
      Text.readInt64? (Text.trim text.toList)) = some n := by
  simp only [SaysStart, Option.bind_eq_some_iff, Text.readInt64?_eq_some_iff]

theorem startsAt_iff :
    e.StartsAt start ↔ start = ((e.attribute? "start").bind fun text =>
      Text.readInt64? (Text.trim text.toList)).getD 1 := by
  simp only [StartsAt, saysStart_iff]
  cases (e.attribute? "start").bind fun text => Text.readInt64? (Text.trim text.toList) with
  | none => simp
  | some n => simp [eq_comm]

theorem StartsAt.isInt64 (h : e.StartsAt start) : Text.isInt64 start := by
  rcases h with ⟨-, -, -, hfits⟩ | ⟨-, rfl⟩
  · exact hfits
  · rfl

end Element

namespace Tree

variable {t : Tree} {e : Element} {list item : NodeId} {k : ℕ} {start : ℤ}

/-- The items of a list, in their order. Texts, comments and other elements are left out. -/
def items (t : Tree) (list : NodeId) : List NodeId := (t.children list).filter (t.isTag · "li")

theorem mem_items_iff (ht : t.Linked) :
    item ∈ t.items list ↔ t.parent? item = some list ∧ t.isTag item "li" := by
  rw [items, List.mem_filter, ht.mem_children_iff]

/-- No item stands twice in a list, so where it stands is its position. -/
theorem idxOf?_items (ht : t.LinksAgree) (h : (t.items list)[k]? = some item) :
    (t.items list).idxOf? item = some k := by
  obtain ⟨hk, hitem⟩ := List.getElem?_eq_some_iff.1 h
  refine List.idxOf?_eq_some_iff.2 ⟨hk, hitem, ?_⟩
  intro j hj heq
  have hnodup : (t.items list).Nodup := (ht.nodup list).filter _
  exact Nat.ne_of_lt hj ((hnodup.getElem_inj_iff).1 (heq.trans hitem.symm))

/-- The items are counted from the start of their list. -/
theorem marker?_item (ht : t.LinksAgree) (hlist : t.element? list = some e) (htag : e.tag = "ol")
    (hstart : e.StartsAt start) (h : (t.items list)[k]? = some item) :
    t.marker? item = some (.decimal (start + k)) := by
  obtain ⟨hparent, -⟩ := (mem_items_iff ht.linked).1 (List.mem_of_getElem? h)
  have hnumbered : ((t.elementChildren list).filter (t.isTag · "li")).idxOf? item = some k := by
    rw [elementChildren, filter_isTag_filter_element?]
    exact idxOf?_items ht h
  rw [marker?, hparent]
  simp only [hlist, htag, hnumbered, ← Element.startsAt_iff.1 hstart, Option.getD_some]
  rfl

theorem isInt64_item_iff (hstart : e.StartsAt start) (k : ℕ) :
    Text.isInt64 (start + k) ↔ start + k < 2 ^ 63 := by
  have hrange := hstart.isInt64
  simp only [Text.isInt64, Bool.and_eq_true, decide_eq_true_eq] at hrange ⊢
  omega

/-- A list as long as it may be has its last item at the largest number. -/
theorem forall_items_fit_iff (ht : t.LinksAgree) (hlist : t.element? list = some e)
    (htag : e.tag = "ol") (hstart : e.StartsAt start) :
    (∀ item ∈ t.items list, (t.marker? item).all Marker.fits) ↔
      start + (t.items list).length ≤ 2 ^ 63 := by
  have hfits : ∀ (k : ℕ) (item : NodeId), (t.items list)[k]? = some item →
      ((t.marker? item).all Marker.fits ↔ start + k < 2 ^ 63) := by
    intro k item h
    rw [marker?_item ht hlist htag hstart h]
    exact isInt64_item_iff hstart k
  constructor
  · intro h
    cases hlength : (t.items list).length with
    | zero =>
      have hrange := (isInt64_item_iff hstart 0).1 (by simpa using hstart.isInt64)
      exact Int.le_of_lt hrange
    | succ k =>
      obtain ⟨item, hitem⟩ : ∃ item, (t.items list)[k]? = some item :=
        ⟨_, List.getElem?_eq_getElem (by omega)⟩
      have hlast := (hfits k item hitem).1 (h item (List.mem_of_getElem? hitem))
      push_cast
      omega
  · intro h item hitem
    obtain ⟨k, hk⟩ := List.mem_iff_getElem?.1 hitem
    obtain ⟨hlt, -⟩ := List.getElem?_eq_some_iff.1 hk
    exact (hfits k item hk).2 (by omega)

/-- After every history, the marker of an item in an ordered list is the number of the first item
and as much more as there are items in front. The item can be laid out if and only if its number
fits in 64 bits, so a list is numbered throughout just if its last number fits. A layout fails for
no other reason, and it does fail at an item that is shown. -/
theorem items_count_from_start (edits : List Edit) :
    let t := after edits
    (∀ list e, t.element? list = some e → e.tag = "ol" → ∃ start, e.StartsAt start ∧
      (∀ item, item ∈ t.items list ↔ t.parent? item = some list ∧ t.isTag item "li") ∧
      (∀ (k : ℕ) (item : NodeId), (t.items list)[k]? = some item →
        t.marker? item = some (.decimal (start + k)) ∧
          ∀ page : Page, page.tree = t → ∀ s zone,
            (page.listItem item s zone).overflow = none ↔ start + k < 2 ^ 63) ∧
      ((∀ item ∈ t.items list, (t.marker? item).all Marker.fits) ↔
        start + (t.items list).length ≤ 2 ^ 63)) ∧
    ∀ page : Page, page.tree = t →
      ((∀ item, t.isTag item "li" → (t.marker? item).all Marker.fits) →
        ∀ size, (page.document size).overflow = none) ∧
      ∀ item, t.isTag item "li" → page.isHidden item = false →
        (t.marker? item).all Marker.fits = false →
          ∀ levels zone inline,
            (page.place (levels + 1) item zone inline).overflow = some .addition := by
  intro t
  have ht : t.LinksAgree := (built_after edits).linksAgree
  clear_value t
  constructor
  · intro list e hlist htag
    obtain ⟨start, hstart⟩ : ∃ start, e.StartsAt start := ⟨_, Element.startsAt_iff.2 rfl⟩
    refine ⟨start, hstart, fun item => mem_items_iff ht.linked, ?_,
      forall_items_fit_iff ht hlist htag hstart⟩
    intro k item h
    have hmarker := marker?_item ht hlist htag hstart h
    refine ⟨hmarker, ?_⟩
    rintro page rfl s zone
    rw [Page.overflow_listItem, hmarker, ← isInt64_item_iff hstart k]
    exact ite_eq_left_iff.trans (by simp [Marker.fits])
  · rintro page rfl
    refine ⟨Page.overflow_document, ?_⟩
    intro item hitem hshown hnumber levels zone inline
    obtain ⟨e, he, htag⟩ := exists_element?_of_isTag hitem
    exact Page.overflow_place_item he htag hshown hnumber levels zone inline

/-- A text and a paragraph between two items of a list that starts at seven. -/
theorem items_count_from_start_of_seven :
    let edits : List Edit := [.appendElement root "ol" [("start", " +7 ")],
      .appendElement 1 "li" [], .appendText 1 "a", .appendElement 1 "p" [],
      .appendElement 1 "li" []]
    (after edits).marker? 5 = some (.decimal 8) ∧
      ∀ page : Page, page.tree = after edits → ∀ s zone,
        (page.listItem 5 s zone).overflow = none := by
  intro edits
  obtain ⟨start, hstart, -, hitems, -⟩ :=
    (items_count_from_start edits).1 1 ⟨"ol", [⟨"start", " +7 "⟩]⟩ (by decide) rfl
  obtain rfl : start = 7 := (Element.startsAt_iff.1 hstart).trans (by decide)
  obtain ⟨hmarker, hfits⟩ := hitems 1 5 (by decide)
  exact ⟨hmarker, fun page hpage s zone => (hfits page hpage s zone).2 (by decide)⟩

/-- Behind an item with the largest number there can be no other. -/
theorem item_behind_largest_number :
    let item : Spec := .element "li" [] [.text "a"]
    let list : Spec := .element "ol" [("start", "9223372036854775807")] [item, item]
    let page : Page := { tree := (Spec.element "body" [] [list]).toTree }
    (∃ e, page.tree.element? 2 = some e ∧ e.StartsAt 9223372036854775807) ∧
      page.tree.items 2 = [3, 5] ∧
      page.tree.marker? 5 = some (.decimal (9223372036854775807 + 1)) ∧
      Text.isInt64 (9223372036854775807 + 1) = false ∧
      (page.document {}).overflow = some .addition := by
  intro item list page
  refine ⟨⟨⟨"ol", [⟨"start", "9223372036854775807"⟩]⟩, by decide, ?_⟩, by decide, by decide,
    by decide, ?_⟩
  · exact Element.startsAt_iff.2 (by decide)
  · decide +kernel

end Tree

end BoxFlow
