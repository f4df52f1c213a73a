import BoxFlow.Proofs.Dom.Shape
import BoxFlow.Proofs.Layout.DrawnText

/-!
# The texts a layout reads

Two trees of one shape give a document the same layout if they agree on the texts that the layout
gets to and on those that an element it gets to reads (`Page.document_withTree_of_reads`). For a
single node it is enough that the trees have one shape at and below it, and that it gets the same
marker if it is a list item (`Page.place_withTree_of_reads`).

A layout gets from a node to its children if the node lets them flow (`Page.LetsFlow`), and as many
levels down as it may (`Page.Reaches`). An element reads more than that (`Page.Reads`): the text it
starts with, all text of a paragraph and of the cells of a table, the text that a list item takes
from its first element, and the texts in front of the body of a table, which are blank or end the
table. None of this asks for levels.
-/

set_option autoImplicit false

namespace BoxFlow

/-- What follows a value depends on it only. -/
theorem Draw.bind_congr_value {α β : Type} {x : Draw α} {f g : α → Draw β}
    (h : f x.value = g x.value) : x >>= f = x >>= g := by
  show Draw.mk _ _ _ _ = Draw.mk _ _ _ _
  rw [h]

namespace Page

/-! ## Pages with another tree -/

/-- The page with another tree. -/
def withTree (page : Page) (t' : Tree) : Page := { page with tree := t' }

section WithTree

variable (page : Page) (t' : Tree)

@[simp] theorem tree_withTree : (page.withTree t').tree = t' := rfl

@[simp] theorem metrics_withTree : (page.withTree t').metrics = page.metrics := rfl

@[simp] theorem style_withTree : (page.withTree t').style = page.style := rfl

@[simp] theorem isHidden_withTree : (page.withTree t').isHidden = page.isHidden := rfl

@[simp] theorem textWidth_withTree : (page.withTree t').textWidth = page.textWidth := rfl

@[simp] theorem lineHeight_withTree : (page.withTree t').lineHeight = page.lineHeight := rfl

@[simp] theorem drawText_withTree : (page.withTree t').drawText = page.drawText := rfl

@[simp] theorem drawLines_withTree : (page.withTree t').drawLines = page.drawLines := by
  funext s x y lines
  induction lines generalizing y with
  | nil => rfl
  | cons line lines ih => simp only [drawLines, drawText_withTree, lineHeight_withTree, ih]

@[simp] theorem drawMarker_withTree : (page.withTree t').drawMarker = page.drawMarker := rfl

@[simp] theorem wrappedLines_withTree : (page.withTree t').wrappedLines = page.wrappedLines := rfl

end WithTree

variable {page : Page} {t' : Tree} {S : NodeId → Prop} {id c n : NodeId}

/-! ## What looks at the shape only -/

/-- The marker of an item depends on what is above it too. -/
theorem marker?_eq (h : page.tree.SameShape t') (item : NodeId) :
    t'.marker? item = page.tree.marker? item := by
  simp only [Tree.marker?, (h.atNode _).parent?_eq, (h.atNode _).element?_eq,
    h.on.elementChildren_eq trivial, (h.atNode _).isTag_eq]

section Shape

variable (h : page.tree.SameShapeOn t' S)

include h

theorem flowsInline_withTree (hid : S id) (parentInline : Bool) :
    (page.withTree t').flowsInline id parentInline = page.flowsInline id parentInline := by
  rw [flowsInline, flowsInline, tree_withTree, style_withTree]
  rcases (h.atNode hid).kind_cases with heq | ⟨content, content', hkind, hkind'⟩
  · rw [heq]
  · rw [hkind, hkind']

theorem flowingChildren_withTree (hid : S id) (skipFirstText : Bool) :
    (page.withTree t').flowingChildren id skipFirstText =
      page.flowingChildren id skipFirstText := by
  simp only [flowingChildren, tree_withTree, (h.atNode hid).children_eq]
  cases hchildren : page.tree.children id with
  | nil => rfl
  | cons first rest =>
    have hmem : ∀ c ∈ first :: rest, S c := fun c hc => h.child hid (hchildren ▸ hc)
    simp only [(h.atNode (hmem first List.mem_cons_self)).isSome_text?_eq]
    apply List.filter_congr
    intro c hc
    rw [(h.atNode (hmem c ?_)).isComment_eq]
    split at hc
    · exact List.mem_cons_of_mem first hc
    · exact hc

theorem rows_withTree {body : NodeId} (hbody : S body) :
    (page.withTree t').rows body = page.rows body := by
  rw [rows, rows, tree_withTree, isHidden_withTree, h.elementChildren_eq hbody]
  apply List.filter_congr
  intro c hc
  rw [(h.atNode (h.of_elementChild hbody hc)).isTag_eq]

theorem cells_withTree {row : NodeId} (hrow : S row) :
    (page.withTree t').cells row = page.cells row := by
  rw [cells, cells, tree_withTree, isHidden_withTree, h.elementChildren_eq hrow]
  apply List.filter_congr
  intro c hc
  have hc := h.atNode (h.of_elementChild hrow hc)
  rw [hc.isTag_eq, hc.isTag_eq]

theorem layoutText_withTree (hid : S id) (content : String) (zone : Zone) (inline : Bool) :
    (page.withTree t').layoutText id content zone inline =
      page.layoutText id content zone inline := by
  simp only [layoutText, tree_withTree, metrics_withTree, style_withTree, drawText_withTree,
    drawLines_withTree, (h.atNode hid).next?_eq]

/-- A box looks at the text it starts with, and at how many children there are. -/
theorem inlineBox_withTree (hid : S id)
    (hleading : (page.withTree t').leadingText? id = page.leadingText? id) (s : Style)
    (zone : Zone) : (page.withTree t').inlineBox id s zone = page.inlineBox id s zone := by
  simp only [inlineBox, hleading, tree_withTree, textWidth_withTree, lineHeight_withTree,
    drawText_withTree, (h.atNode hid).children_eq, (h.atNode hid).next?_eq]

omit h in
theorem blockBox_withTree {id : NodeId}
    (hleading : (page.withTree t').leadingText? id = page.leadingText? id) (s : Style)
    (zone : Zone) : (page.withTree t').blockBox id s zone = page.blockBox id s zone := by
  simp only [blockBox, hleading, drawText_withTree]

theorem flow_withTree {place place' : Placement} {cs : List NodeId} (hcs : ∀ c ∈ cs, S c)
    (hplace : ∀ c ∈ cs, place' c = place c) (zone : Zone) (parentInline : Bool)
    (cursor : FlowCursor) :
    (page.withTree t').flow place' zone parentInline cursor cs =
      page.flow place zone parentInline cursor cs := by
  induction cs generalizing cursor with
  | nil => rfl
  | cons c cs ih =>
    obtain ⟨hc, hcs⟩ := List.forall_mem_cons.1 hcs
    obtain ⟨hfirst, hrest⟩ := List.forall_mem_cons.1 hplace
    simp only [flow, flowsInline_withTree h hc, hfirst, ih hcs hrest]

/-- The flow only gets to children, so it is enough that these are laid out in the same way. -/
theorem flowChildren_withTree (hid : S id) {place place' : Placement}
    (hplace : ∀ c ∈ page.tree.children id, place' c = place c) (zone : Zone)
    (skipFirstText : Bool) :
    (page.withTree t').flowChildren place' id zone skipFirstText =
      page.flowChildren place id zone skipFirstText := by
  have hmem : ∀ c ∈ page.flowingChildren id skipFirstText, S c :=
    fun c hc => h.child hid (mem_children_of_mem_flowingChildren hc)
  have hflow : ∀ c ∈ page.flowingChildren id skipFirstText, place' c = place c :=
    fun c hc => hplace c (mem_children_of_mem_flowingChildren hc)
  simp only [flowChildren, flowsInline_withTree h hid, flowingChildren_withTree h hid,
    flow_withTree h hmem hflow]

end Shape

/-! ## The texts an element reads -/

/-- A node is among the pieces of a paragraph: on the way down to it there are only elements that
are shown, and no line breaks. -/
inductive InParagraph (page : Page) : NodeId → NodeId → Prop
  | child {id n : NodeId} : n ∈ page.tree.children id → InParagraph page id n
  | deeper {id c n : NodeId} : c ∈ page.tree.children id → ¬ page.tree.isTag c "br" →
      page.isHidden c = false → InParagraph page c n → InParagraph page id n

/-- An element looks at a text to draw what it draws of itself. -/
inductive Reads (page : Page) (id : NodeId) : NodeId → Prop
  /-- A box or a list item looks at the text it starts with. -/
  | leading {e : Element} {n : NodeId} : page.tree.element? id = some e →
      e.tag ∉ ["p", "img", "ul", "ol", "table"] → page.tree.firstChild? id = some n →
      Reads page id n
  /-- A list item that does not start with text looks at what its first element starts with. -/
  | borrowed {first n : NodeId} : page.tree.isTag id "li" → page.leadingText? id = none →
      (page.tree.elementChildren id).head? = some first → page.tree.firstChild? first = some n →
      Reads page id n
  | paragraph {n : NodeId} : page.tree.isTag id "p" → page.InParagraph id n → Reads page id n
  /-- A table looks for its body behind nodes that count for nothing. -/
  | separator {before after : List NodeId} {n : NodeId} : page.tree.isTag id "table" →
      page.tree.children id = before ++ n :: after → (∀ c ∈ before, page.isIgnorable c) →
      Reads page id n
  | cell {body row cell n : NodeId} : page.tree.isTag id "table" → page.tableBody? id = some body →
      row ∈ page.rows body → cell ∈ page.cells row → n ∈ page.tree.subtree cell → Reads page id n

section Elements

variable (h : page.tree.SameShapeOn t' S)

include h

/-- A text an element starts with is the same if its first child is. -/
theorem leadingText?_withTree (hid : S id)
    (hfirst : ∀ n, page.tree.firstChild? id = some n → t'.text? n = page.tree.text? n) :
    (page.withTree t').leadingText? id = page.leadingText? id := by
  rw [leadingText?, leadingText?, tree_withTree, (h.atNode hid).firstChild?_eq]
  cases hchild : page.tree.firstChild? id with
  | none => rfl
  | some n => simp only [Option.bind_some, hfirst n hchild]

/-- A paragraph turns back at hidden elements and at line breaks. -/
theorem piecesWithin_withTree {limit : ℕ} (hid : S id)
    (htexts : ∀ n, page.InParagraph id n → t'.text? n = page.tree.text? n) :
    (page.withTree t').piecesWithin limit id = page.piecesWithin limit id := by
  induction limit generalizing id with
  | zero => rfl
  | succ limit ih =>
    rw [piecesWithin, piecesWithin, tree_withTree, isHidden_withTree, (h.atNode hid).children_eq]
    apply List.flatMap_congr
    intro c hc
    rw [(h.atNode (h.child hid hc)).kind_eq (htexts c (.child hc))]
    split
    · rfl
    · next e hkind =>
      split
      · rfl
      · next hbreak =>
        split
        · rfl
        · next hhidden =>
          have htag : ¬ page.tree.isTag c "br" :=
            fun htag => hbreak ((Tree.isTag_iff hkind "br").1 htag)
          rw [Bool.not_eq_true] at hhidden
          exact ih (h.child hid hc) fun n hn => htexts n (.deeper hc htag hhidden hn)
    · rfl

theorem paragraph_withTree (hid : S id)
    (htexts : ∀ n, page.InParagraph id n → t'.text? n = page.tree.text? n)
    (s : Style) (zone : Zone) :
    (page.withTree t').paragraph id s zone = page.paragraph id s zone := by
  have hlines : (page.withTree t').paragraphLines id = page.paragraphLines id := by
    rw [paragraphLines, paragraphLines, piecesWithin_withTree h hid htexts, tree_withTree,
      h.size_eq]
  simp only [paragraph, hlines, wrappedLines_withTree, lineHeight_withTree, drawLines_withTree]

theorem listItem_withTree (hid : S id) (htag : page.tree.isTag id "li")
    (hmarker : t'.marker? id = page.tree.marker? id)
    (hown : (page.withTree t').leadingText? id = page.leadingText? id)
    (hreads : ∀ n, page.Reads id n → t'.text? n = page.tree.text? n) (s : Style) (zone : Zone) :
    (page.withTree t').listItem id s zone = page.listItem id s zone := by
  have htext : (page.leadingText? id).or
        ((page.tree.elementChildren id).head?.bind (page.withTree t').leadingText?) =
      (page.leadingText? id).or
        ((page.tree.elementChildren id).head?.bind page.leadingText?) := by
    cases hleading : page.leadingText? id with
    | some text => rfl
    | none =>
      cases hfirst : (page.tree.elementChildren id).head? with
      | none => rfl
      | some first =>
        have hmem : S first := h.of_elementChild hid (List.mem_of_head? hfirst)
        exact leadingText?_withTree h hmem
          fun n hn => hreads n (.borrowed htag hleading hfirst hn)
  simp only [listItem, hown, tree_withTree, drawMarker_withTree, drawText_withTree,
    h.elementChildren_eq hid, hmarker, htext]

/-! ## Tables -/

omit h in
/-- Looking for the first node with a property asks about it and the nodes in front of it. -/
theorem find?_eq_of_front {p q : NodeId → Bool} {ids : List NodeId}
    (hfront : ∀ before x after, ids = before ++ x :: after → (∀ y ∈ before, p y = false) →
      q x = p x) : ids.find? q = ids.find? p := by
  induction ids with
  | nil => rfl
  | cons x ids ih =>
    rw [List.find?_cons, List.find?_cons, hfront [] x ids rfl (List.forall_mem_nil _)]
    cases hx : p x with
    | true => rfl
    | false =>
      apply ih
      intro before y after heq hbefore
      exact hfront (x :: before) y after (congrArg (x :: ·) heq)
        (List.forall_mem_cons.2 ⟨hx, hbefore⟩)

theorem tableBody?_withTree (hid : S id) (htag : page.tree.isTag id "table")
    (hreads : ∀ n, page.Reads id n → t'.text? n = page.tree.text? n) :
    (page.withTree t').tableBody? id = page.tableBody? id := by
  have hfind : (page.tree.children id).find? (fun c => !(page.withTree t').isIgnorable c) =
      (page.tree.children id).find? fun c => !page.isIgnorable c := by
    apply find?_eq_of_front
    intro before c after heq hbefore
    have hread : page.Reads id c :=
      .separator htag heq fun y hy => by simpa using hbefore y hy
    have hc : c ∈ page.tree.children id := heq ▸ List.mem_append_right before List.mem_cons_self
    rw [isIgnorable, isIgnorable, tree_withTree,
      (h.atNode (h.child hid hc)).kind_eq (hreads c hread)]
  rw [tableBody?, tableBody?, tree_withTree, (h.atNode hid).children_eq, hfind]
  cases hbody : (page.tree.children id).find? fun c => !page.isIgnorable c with
  | none => rfl
  | some body =>
    have hmem : S body := h.child hid (List.mem_of_find?_eq_some hbody)
    rw [Option.filter_some, Option.filter_some, (h.atNode hmem).isTag_eq]

omit h in
theorem mem_children_of_tableBody? {body : NodeId} (hbody : page.tableBody? id = some body) :
    body ∈ page.tree.children id :=
  List.mem_of_find?_eq_some (Option.mem_filter_iff.1 hbody).1

/-- A cell shows all text below it. -/
theorem drawCell_withTree {cell : NodeId} (hcell : S cell)
    (htexts : ∀ n ∈ page.tree.subtree cell, t'.text? n = page.tree.text? n) (zone : Zone) :
    (page.withTree t').drawCell cell zone = page.drawCell cell zone := by
  have hcontent : t'.textContent cell = page.tree.textContent cell := by
    rw [Tree.textContent, Tree.textContent, h.subtree_eq hcell]
    congr 1
    apply List.flatMap_congr
    intro n hn
    rw [htexts n hn]
  simp only [drawCell, tree_withTree, style_withTree, textWidth_withTree, lineHeight_withTree,
    drawText_withTree, hcontent]

theorem drawCells_withTree {cells : List NodeId} (hcells : ∀ cell ∈ cells, S cell)
    (htexts : ∀ cell ∈ cells, ∀ n ∈ page.tree.subtree cell, t'.text? n = page.tree.text? n)
    (zone : Zone) (x tallest : Float32) :
    (page.withTree t').drawCells zone x tallest cells = page.drawCells zone x tallest cells := by
  induction cells generalizing x tallest with
  | nil => rfl
  | cons cell cells ih =>
    obtain ⟨hfirst, hcells⟩ := List.forall_mem_cons.1 hcells
    obtain ⟨hcell, hrest⟩ := List.forall_mem_cons.1 htexts
    simp only [drawCells, drawCell_withTree h hfirst hcell, ih hcells hrest]

theorem drawRows_withTree {rows : List NodeId} (hrows : ∀ row ∈ rows, S row)
    (htexts : ∀ row ∈ rows, ∀ cell ∈ page.cells row, ∀ n ∈ page.tree.subtree cell,
      t'.text? n = page.tree.text? n)
    (zone : Zone) (y : Float32) :
    (page.withTree t').drawRows zone y rows = page.drawRows zone y rows := by
  induction rows generalizing y with
  | nil => rfl
  | cons row rows ih =>
    obtain ⟨hfirst, hrows⟩ := List.forall_mem_cons.1 hrows
    obtain ⟨hrow, hrest⟩ := List.forall_mem_cons.1 htexts
    have hcells : ∀ cell ∈ page.cells row, S cell :=
      fun cell hcell => h.of_elementChild hfirst (List.mem_of_mem_filter hcell)
    simp only [drawRows, cells_withTree h hfirst, drawCells_withTree h hcells hrow,
      ih hrows hrest]

theorem table_withTree (hid : S id) (htag : page.tree.isTag id "table")
    (hreads : ∀ n, page.Reads id n → t'.text? n = page.tree.text? n) (zone : Zone) :
    (page.withTree t').table id zone = page.table id zone := by
  rw [table, table, tableBody?_withTree h hid htag hreads]
  cases hbody : page.tableBody? id with
  | none => rfl
  | some body =>
    have hmem : S body := h.child hid (mem_children_of_tableBody? hbody)
    have hrows : ∀ row ∈ page.rows body, S row :=
      fun row hrow => h.of_elementChild hmem (List.mem_of_mem_filter hrow)
    have htexts : ∀ row ∈ page.rows body, ∀ cell ∈ page.cells row,
        ∀ n ∈ page.tree.subtree cell, t'.text? n = page.tree.text? n :=
      fun row hrow cell hcell n hn => hreads n (.cell htag hbody hrow hcell hn)
    simp only [rows_withTree h hmem, drawRows_withTree h hrows htexts]

/-! ## What an element draws of itself -/

/-- An element draws the same if the texts it reads are the same, and so is its marker. -/
theorem content_withTree (hid : S id) (hmarker : t'.marker? id = page.tree.marker? id)
    {e : Element} (he : page.tree.element? id = some e)
    (hreads : ∀ n, page.Reads id n → t'.text? n = page.tree.text? n) (s : Style) (zone : Zone) :
    (page.withTree t').content id e s zone = page.content id e s zone := by
  have htag := Tree.isTag_of_element? he
  have hleading : e.tag ∉ ["p", "img", "ul", "ol", "table"] →
      (page.withTree t').leadingText? id = page.leadingText? id :=
    fun hbox => leadingText?_withTree h hid fun n hn => hreads n (.leading he hbox hn)
  rw [content, content]
  split
  · next heq =>
    exact paragraph_withTree h hid (fun n hn => hreads n (.paragraph (heq ▸ htag) hn)) s zone
  · rfl
  · rfl
  · rfl
  · next heq =>
    exact listItem_withTree h hid (heq ▸ htag) hmarker (hleading (by simp [heq])) hreads s zone
  · next heq => exact table_withTree h hid (heq ▸ htag) hreads zone
  · next hp himg hul hol _ htable =>
    have hbox : e.tag ∉ ["p", "img", "ul", "ol", "table"] := by
      simp only [List.mem_cons, List.not_mem_nil, or_false, not_or]
      exact ⟨hp, himg, hul, hol, htable⟩
    split
    · exact inlineBox_withTree h hid (hleading hbox) s zone
    · exact blockBox_withTree (hleading hbox) s zone

end Elements

/-! ## The nodes a layout gets to -/

/-- A list item draws the text its first element starts with, having none of its own. -/
def BorrowsText (page : Page) (id : NodeId) : Prop :=
  page.leadingText? id = none ∧
    ((page.tree.elementChildren id).head?.bind page.leadingText?).isSome

/-- The children of a node are laid out: it is the document, or an element that is shown and has not
drawn itself what is below it. -/
inductive LetsFlow (page : Page) (id : NodeId) : Prop
  | document : (page.tree.get? id).map Node.kind = some .document → LetsFlow page id
  | element {e : Element} : page.tree.element? id = some e → page.isHidden id = false →
      e.tag ∉ ["p", "img", "table"] → ¬ (e.tag = "li" ∧ page.BorrowsText id) → LetsFlow page id

/-- Laying out a node with some levels gets to a node at or below it. -/
inductive Reaches (page : Page) : ℕ → NodeId → NodeId → Prop
  | self {levels : ℕ} {id : NodeId} : Reaches page (levels + 1) id id
  | child {levels : ℕ} {id c n : NodeId} : page.LetsFlow id → c ∈ page.tree.children id →
      Reaches page levels c n → Reaches page (levels + 1) id n

/-- An image draws itself and nothing below it, whether it is found or not. -/
theorem children_picture (page : Page) (e : Element) (zone : Zone) :
    (page.picture e zone).value.children = none := by
  rw [picture]
  cases source? e with
  | none => rfl
  | some source =>
    cases hresult : (page.images source).result with
    | error e =>
      simp only [hresult]
      rfl
    | ok image =>
      simp only [hresult]
      rfl

theorem children_table (page : Page) (id : NodeId) (zone : Zone) :
    (page.table id zone).value.children = none := by
  rw [table]
  cases page.tableBody? id <;> rfl

/-- A list item has its children laid out unless it has drawn a text of one of them. -/
theorem children_listItem_of_borrowsText (hborrows : page.BorrowsText id) (s : Style)
    (zone : Zone) : (page.listItem id s zone).value.children = none := by
  obtain ⟨hown, hborrowed⟩ := hborrows
  obtain ⟨text, htext⟩ := Option.isSome_iff_exists.1 hborrowed
  rw [listItem, hown, htext]
  rfl

/-- An element that leaves something to its flow lets its children flow. -/
theorem letsFlow_of_content {e : Element} (he : page.tree.element? id = some e)
    (hshown : page.isHidden id = false) {s : Style} {zone : Zone} {flow : ChildFlow}
    (hflow : (page.content id e s zone).value.children = some flow) : page.LetsFlow id := by
  have hnone : ¬ (page.content id e s zone).value.children = none := by rw [hflow]; simp
  refine .element he hshown ?_ ?_
  · intro hmem
    apply hnone
    simp only [List.mem_cons, List.not_mem_nil, or_false] at hmem
    rw [content]
    rcases hmem with htag | htag | htag <;> rw [htag]
    · rfl
    · exact children_picture page e zone
    · exact children_table page id zone
  · rintro ⟨htag, hborrows⟩
    apply hnone
    rw [content, htag]
    exact children_listItem_of_borrowsText hborrows s zone

section Reached

variable (h : page.tree.SameShapeOn t' S)
variable (hmarker : ∀ {x : NodeId}, S x → t'.marker? x = page.tree.marker? x)

include h hmarker

theorem shownElement_withTree (hid : S id) {place place' : Placement}
    (hplace : page.LetsFlow id → ∀ c ∈ page.tree.children id, place' c = place c)
    (hshown : page.isHidden id = false) {e : Element} (he : page.tree.element? id = some e)
    (hreads : ∀ n, page.Reads id n → t'.text? n = page.tree.text? n) (zone : Zone)
    (inline : Bool) :
    (page.withTree t').shownElement place' id e zone inline =
      page.shownElement place id e zone inline := by
  rw [shownElement, shownElement]
  simp only [style_withTree, content_withTree h hid (hmarker hid) he hreads]
  apply Draw.bind_congr_value
  -- the children count only if the content leaves something to them
  split
  · rfl
  · next flow hflow =>
    simp only [flowChildren_withTree h hid (hplace (letsFlow_of_content he hshown hflow))]

/-- A node is laid out in the same way if the texts that the layout gets to are the same, and those
that are read by an element it gets to. The induction is on the levels. -/
theorem place_withTree_of_reads {levels : ℕ} (hid : S id)
    (htexts : ∀ n, page.Reaches levels id n → t'.text? n = page.tree.text? n)
    (hreads : ∀ m, page.Reaches levels id m → page.isHidden m = false →
      ∀ n, page.Reads m n → t'.text? n = page.tree.text? n) :
    (page.withTree t').place levels id = page.place levels id := by
  induction levels generalizing id with
  | zero => rfl
  | succ levels ih =>
    funext zone inline
    have hchildren : page.LetsFlow id → ∀ c ∈ page.tree.children id,
        (page.withTree t').place levels c = page.place levels c := by
      intro hflow c hc
      exact ih (h.child hid hc) (fun n hn => htexts n (.child hflow hc hn))
        fun m hm => hreads m (.child hflow hc hm)
    rw [place, place, tree_withTree, (h.atNode hid).kind_eq (htexts id .self)]
    cases hkind : (page.tree.get? id).map Node.kind with
    | none => rfl
    | some kind =>
      cases kind with
      | document => exact flowChildren_withTree h hid (hchildren (.document hkind)) zone false
      | element e =>
        have he : page.tree.element? id = some e := by rw [Tree.element?, hkind]
        show (page.withTree t').element _ id e zone inline = page.element _ id e zone inline
        rw [element, element, isHidden_withTree]
        split
        · rfl
        · next hhidden =>
          rw [Bool.not_eq_true] at hhidden
          exact shownElement_withTree h hmarker hid hchildren hhidden he
            (hreads id .self hhidden) zone inline
      | text content => exact layoutText_withTree h hid content zone inline
      | comment content => rfl

end Reached

/-! ## Documents -/

/-- The layout of a document gets to a node. -/
def LaysOut (page : Page) (n : NodeId) : Prop :=
  ∃ c ∈ page.tree.children page.start, page.Reaches page.documentLevels c n

/-- The layout of a document gets to an element that reads a text, and does not turn back at it. -/
def IsRead (page : Page) (n : NodeId) : Prop :=
  ∃ id, page.LaysOut id ∧ page.isHidden id = false ∧ page.Reads id n

/-- A document is laid out in the same way if the texts that the layout gets to are the same, and
those that are read on the way. -/
theorem document_withTree_of_reads (h : page.tree.SameShape t')
    (htexts : ∀ n, page.LaysOut n ∨ page.IsRead n → t'.text? n = page.tree.text? n)
    (size : CanvasSize) : (page.withTree t').document size = page.document size := by
  have hplace : ∀ c ∈ page.tree.children page.start,
      (page.withTree t').place page.documentLevels c = page.place page.documentLevels c := by
    intro c hc
    apply place_withTree_of_reads h.on (fun _ => marker?_eq h _) trivial
    · exact fun n hn => htexts n (Or.inl ⟨c, hc, hn⟩)
    · exact fun m hm hshown n hn => htexts n (Or.inr ⟨m, ⟨c, hc, hm⟩, hshown, hn⟩)
  have hbody : (page.withTree t').bodyStyle = page.bodyStyle := by
    rw [bodyStyle, bodyStyle, tree_withTree, h.body?_eq, style_withTree]
  have hcontent : (page.withTree t').documentContent size = page.documentContent size := by
    rw [documentContent, documentContent, tree_withTree, h.body?_eq, hbody]
    rw [start, documentLevels] at hplace
    cases hstart : page.tree.body? with
    | none =>
      rw [hstart] at hplace
      exact flowChildren_withTree h.on trivial hplace _ false
    | some body =>
      rw [hstart] at hplace
      simp only [h.depth_eq]
      exact flowChildren_withTree h.on trivial hplace _ false
  simp only [document, canvasColor, hbody, hcontent]

end Page

end BoxFlow
