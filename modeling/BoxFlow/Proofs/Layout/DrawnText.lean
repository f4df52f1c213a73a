import BoxFlow.Layout.Document
import BoxFlow.Proofs.Layout.ShownText

/-!
# The text that is drawn

What is drawn of a node has exactly the ink of the texts that are to be shown of it, in document
order, whatever styles, measures and zones there are (`LayoutPass.layout_draws_shown_text`). List
items, tables and images have contents of their own and are left out here, as are line breaks that
hold something.

Each way to draw a text keeps its ink: one run, lines below each other, the lines of a paragraph.
An element either draws all that is below it (a paragraph) or the text it starts with, and then its
children flow without that text (`Page.ink_content`). The induction is on the levels that may still
be laid out; a node at depth `d` is laid out with `maxDepth + 1 - d` of them, which is enough for
itself.
-/

set_option autoImplicit false

namespace BoxFlow

/-! ## The ink of commands -/

namespace Command

/-- The ink of the texts that are drawn, in order. -/
def ink (commands : List Command) : List Char :=
  (runs commands).flatMap fun run => Text.ink run.text.toList

@[simp] theorem ink_nil : ink [] = [] := rfl

@[simp] theorem ink_append (xs ys : List Command) : ink (xs ++ ys) = ink xs ++ ink ys := by
  rw [ink, runs, List.filterMap_append, List.flatMap_append]
  rfl

@[simp] theorem ink_fill (bounds : Rect) (color : Color) : ink (fill bounds color) = [] := by
  rw [fill]
  split <;> rfl

theorem ink_drawText (bounds : Rect) (run : TextRun) :
    ink [.drawText bounds run] = Text.ink run.text.toList :=
  List.flatMap_singleton _ run

end Command

/-- A box draws its background and its border, and no text. -/
@[simp] theorem BoxExtent.ink_draw (s : Style) (zone : Zone) (maxHeight maxWidth : Option Float32) :
    Command.ink (BoxExtent.draw s zone maxHeight maxWidth).commands = [] := by
  rw [BoxExtent.draw, BoxExtent.paint]
  simp only [Command.ink_append, List.append_eq_nil_iff]
  -- the background and each side are filled, or left out
  refine ⟨⟨⟨⟨?_, ?_⟩, ?_⟩, ?_⟩, ?_⟩
  all_goals
    split
    · exact Command.ink_fill _ _
    · rfl

namespace Page

variable {page : Page} {id c : NodeId} {e : Element}

/-! ## Pieces of text -/

@[simp] theorem ink_drawText (page : Page) (s : Style) (text : List Char) (x y : Float32) :
    Command.ink (page.drawText s text x y).commands = Text.ink text := by
  rw [drawText]
  split
  · next hempty => rw [List.isEmpty_iff.1 hempty]; rfl
  · rw [Command.ink_drawText, run, String.toList_ofList]

@[simp] theorem ink_drawLines (page : Page) (s : Style) (x y : Float32)
    (lines : List (List Char)) :
    Command.ink (page.drawLines s x y lines).commands = lines.flatMap Text.ink := by
  induction lines generalizing y with
  | nil => rfl
  | cons line lines ih =>
    rw [drawLines, Draw.commands_bind, Command.ink_append, ih, ink_drawText, List.flatMap_cons]

/-- A text that no element has drawn is drawn whole. -/
theorem ink_layoutText (page : Page) (id : NodeId) (content : String) (zone : Zone)
    (inline : Bool) :
    Command.ink (page.layoutText id content zone inline).commands = Text.ink content.toList := by
  rw [← Text.ink_visible content.toList, layoutText]
  generalize Text.visible content.toList = text
  split
  · next hempty => rw [List.isEmpty_iff.1 hempty]; rfl
  · split
    · rw [ink_drawText]
      split
      · rw [Text.ink_append, Text.ink_space, List.append_nil]
      · rfl
    · rw [Draw.commands_bind, Command.ink_append, ink_drawLines, Text.ink_wrap]
      exact List.append_nil _

/-! ## Paragraphs -/

theorem ink_wrappedLines (page : Page) (width size : Float32) (lines : List (List Char)) :
    (page.wrappedLines width size lines).flatMap Text.ink = lines.flatMap Text.ink := by
  rw [wrappedLines]
  generalize hw : lines.flatMap _ = wrapped
  have hwrapped : wrapped.flatMap Text.ink = lines.flatMap Text.ink := by
    rw [← hw, List.flatMap_assoc]
    apply List.flatMap_congr
    intro line _
    have hline := Text.ink_wrap page.metrics width size line
    split
    · next hnone => rw [hnone] at hline; exact hline
    · exact hline
  rw [← hwrapped]
  split
  · next hempty =>
    -- empty lines have no ink
    rw [List.flatMap_nil, eq_comm, List.flatMap_eq_nil_iff]
    intro line hline
    rw [List.isEmpty_iff.1 (List.all_eq_true.1 hempty line hline)]
    rfl
  · rfl

theorem ink_paragraphLines (page : Page) (id : NodeId) :
    (page.paragraphLines id).flatMap Text.ink =
      (page.piecesWithin page.tree.size id).flatMap fun piece => Text.ink piece.chars := by
  generalize hpieces : page.piecesWithin page.tree.size id = pieces
  have hbreak : ∀ piece : ParagraphPiece, piece.isBreak = true → Text.ink piece.chars = [] := by
    intro piece hpiece
    cases piece with
    | text content => cases hpiece
    | lineBreak => rfl
  have hlines : (page.paragraphLines id).flatMap Text.ink =
      (pieces.splitOnP ParagraphPiece.isBreak).flatten.flatMap fun piece =>
        Text.ink piece.chars := by
    rw [paragraphLines, hpieces, List.flatMap_map, List.flatten_eq_flatMap, List.flatMap_assoc]
    apply List.flatMap_congr
    intro line _
    rw [Text.ink_visible, Text.ink_flatMap]
    rfl
  rw [hlines, Text.flatten_splitOnP]
  clear hlines hpieces
  induction pieces with
  | nil => rfl
  | cons piece pieces ih =>
    rw [List.filter_cons, List.flatMap_cons]
    split
    · rw [List.flatMap_cons, ih]
    · next hpiece => rw [hbreak piece (by simpa using hpiece), List.nil_append, ih]

/-! ## Plain nodes -/

/-- What lies at and below a node stays within the depth limit and has no elements with contents of
their own, and line breaks hold nothing. -/
structure FlowsPlainly (page : Page) (id : NodeId) : Prop where
  shallow : ∀ n ∈ page.tree.subtree id, page.tree.depth n ≤ maxDepth
  plain : ∀ n ∈ page.tree.subtree id, ∀ tag ∈ ["li", "table", "img"], ¬ page.tree.isTag n tag
  emptyBreak : ∀ n ∈ page.tree.subtree id, page.tree.isTag n "br" → page.tree.children n = []

instance (page : Page) (id : NodeId) : Decidable (page.FlowsPlainly id) :=
  decidable_of_iff
    ((∀ n ∈ page.tree.subtree id, page.tree.depth n ≤ maxDepth) ∧
      (∀ n ∈ page.tree.subtree id, ∀ tag ∈ ["li", "table", "img"], ¬ page.tree.isTag n tag) ∧
      ∀ n ∈ page.tree.subtree id, page.tree.isTag n "br" → page.tree.children n = [])
    ⟨fun h => ⟨h.1, h.2.1, h.2.2⟩, fun h => ⟨h.shallow, h.plain, h.emptyBreak⟩⟩

theorem FlowsPlainly.child (h : page.tree.Planted) (hid : page.FlowsPlainly id)
    (hc : c ∈ page.tree.children id) : page.FlowsPlainly c where
  shallow n hn := hid.shallow n (h.mem_subtree_of_child hc hn)
  plain n hn := hid.plain n (h.mem_subtree_of_child hc hn)
  emptyBreak n hn := hid.emptyBreak n (h.mem_subtree_of_child hc hn)

/-- The pieces of a paragraph are the texts to be shown below it. -/
theorem ink_piecesWithin (h : page.tree.Planted) {limit : ℕ} {id : ℕ}
    (hid : page.FlowsPlainly id) (hlimit : page.tree.size ≤ limit + id) :
    ((page.piecesWithin limit id).flatMap fun piece => Text.ink piece.chars) =
      (page.tree.children id).flatMap page.shownInk := by
  induction limit generalizing id with
  | zero =>
    have hnone : page.tree.get? id = none := Tree.get?_eq_none (by omega)
    rw [Tree.children, hnone]
    rfl
  | succ limit ih =>
    rw [piecesWithin, List.flatMap_assoc]
    apply List.flatMap_congr
    intro c hc
    have hlt := h.lt_of_mem_children hc
    have hchild := hid.child h hc
    cases hkind : (page.tree.get? c).map Node.kind with
    | none => exact (shownInk_none h hkind).symm
    | some kind =>
      cases kind with
      | document =>
        -- the document is nobody's child
        rw [h.eq_root hkind] at hlt
        exact absurd hlt (Nat.not_lt_zero id)
      | element e =>
        show (if e.tag = "br" then [.lineBreak] else if page.isHidden c then [] else
          page.piecesWithin limit c).flatMap (fun piece => Text.ink piece.chars) = _
        split
        · next hbreak =>
          have htag := (Tree.isTag_iff hkind "br").2 hbreak
          have hchildren := hchild.emptyBreak c (h.self_mem_subtree c) htag
          rw [shownInk_eq_nil h hchildren (by rw [Tree.text?, hkind])]
          rfl
        · rw [shownInk_element h hkind]
          split
          · rfl
          · exact ih hchild (by omega)
      | text content =>
        rw [shownInk_text h hkind]
        exact List.flatMap_singleton _ (ParagraphPiece.text content)
      | comment content => exact (shownInk_comment h hkind).symm

/-- A paragraph draws its pieces. -/
theorem ink_paragraph (page : Page) (id : NodeId) (s : Style) (zone : Zone) :
    Command.ink (page.paragraph id s zone).commands =
      (page.piecesWithin page.tree.size id).flatMap fun piece => Text.ink piece.chars := by
  rw [← ink_paragraphLines, ← ink_wrappedLines page
    ((s.length? "width").getD (zone.width - s.padding.left - s.padding.right)) s.fontSize]
  simp only [paragraph, Draw.commands_bind, Draw.commands_pure, Command.ink_append,
    BoxExtent.ink_draw, ink_drawLines, List.nil_append, List.append_nil]

/-! ## The text an element starts with -/

/-- Comments take no part in the flow, and show nothing. -/
theorem ink_filter_comments (h : page.tree.Planted) (cs : List NodeId) :
    (cs.filter fun c => !page.tree.isComment c).flatMap page.shownInk =
      cs.flatMap page.shownInk := by
  induction cs with
  | nil => rfl
  | cons c cs ih =>
    rw [List.filter_cons, List.flatMap_cons]
    split
    · rw [List.flatMap_cons, ih]
    · next hcomment =>
      have hshown : page.shownInk c = [] := by
        rw [Bool.not_eq_true, Bool.not_eq_false', Tree.isComment] at hcomment
        split at hcomment
        · next content hkind => exact shownInk_comment h hkind
        · cases hcomment
      rw [hshown, List.nil_append, ih]

theorem ink_flowingChildren_false (h : page.tree.Planted) (id : NodeId) :
    (page.flowingChildren id false).flatMap page.shownInk =
      (page.tree.children id).flatMap page.shownInk := by
  rw [flowingChildren, ink_filter_comments h]
  cases page.tree.children id <;> rfl

/-- The text an element starts with, and then its children without that text, are all its
children. -/
theorem ink_leadingText? (h : page.tree.Planted) (id : NodeId) :
    Text.ink ((page.leadingText? id).getD []) ++
        (page.flowingChildren id (page.leadingText? id).isSome).flatMap page.shownInk =
      (page.tree.children id).flatMap page.shownInk := by
  cases hleading : page.leadingText? id with
  | none => exact ink_flowingChildren_false h id
  | some text =>
    -- then the first child is a text, and it is this one that the flow leaves out
    rw [leadingText?, Tree.firstChild?] at hleading
    cases hchildren : page.tree.children id with
    | nil => rw [hchildren] at hleading; cases hleading
    | cons first rest =>
      rw [hchildren, List.head?_cons, Option.bind_some] at hleading
      cases hkind : (page.tree.get? first).map Node.kind with
      | none => rw [Tree.text?, hkind] at hleading; cases hleading
      | some kind =>
        cases kind with
        | text content =>
          have htext : page.tree.text? first = some content := by rw [Tree.text?, hkind]
          simp only [htext, Option.ite_none_left_eq_some, Option.some.injEq] at hleading
          have hrest : page.flowingChildren id true =
              rest.filter fun c => !page.tree.isComment c := by
            simp only [flowingChildren, hchildren, htext]
            rfl
          rw [Option.getD_some, ← hleading.2, Text.ink_visible, ← shownInk_text h hkind,
            Option.isSome_some, hrest, ink_filter_comments h, List.flatMap_cons]
        | document => rw [Tree.text?, hkind] at hleading; cases hleading
        | element e => rw [Tree.text?, hkind] at hleading; cases hleading
        | comment content => rw [Tree.text?, hkind] at hleading; cases hleading

/-! ## Elements -/

/-- The ink of the children that flow after what an element has drawn of itself. -/
def restInk (page : Page) (id : NodeId) (content : Content) : List Char :=
  match content.children with
  | none => []
  | some flow => (page.flowingChildren id flow.skipFirstText).flatMap page.shownInk

/-- A box within a line draws the text the element starts with, and leaves the rest to its flow. -/
theorem ink_inlineBox (h : page.tree.Planted) (id : NodeId) (s : Style) (zone : Zone) :
    Command.ink (page.inlineBox id s zone).commands ++
        page.restInk id (page.inlineBox id s zone).value =
      (page.tree.children id).flatMap page.shownInk := by
  -- a space behind the text, where something follows, is no ink
  have htext : ∀ (text : Option (List Char)) (followed : Prop) [Decidable followed],
      Text.ink ((text.map fun text => if followed then text ++ [' '] else text).getD []) =
        Text.ink (text.getD []) := by
    intro text followed _
    cases text with
    | none => rfl
    | some text => by_cases hfollowed : followed <;> simp [hfollowed]
  rw [← ink_leadingText? h id]
  simp only [inlineBox, restInk, Draw.commands_bind, Draw.commands_pure, Draw.value_bind,
    Draw.value_pure, Command.ink_append, BoxExtent.ink_draw, ink_drawText, htext,
    List.nil_append, List.append_nil, Option.isSome_map]

/-- So does a box on a line of its own. -/
theorem ink_blockBox (h : page.tree.Planted) (id : NodeId) (s : Style) (zone : Zone) :
    Command.ink (page.blockBox id s zone).commands ++
        page.restInk id (page.blockBox id s zone).value =
      (page.tree.children id).flatMap page.shownInk := by
  rw [← ink_leadingText? h id]
  simp only [blockBox, restInk, Draw.commands_bind, Draw.commands_pure, Draw.value_bind,
    Draw.value_pure, Command.ink_append, BoxExtent.ink_draw, ink_drawText,
    List.nil_append, List.append_nil]

/-- Whatever a plain element draws of itself, together with the children that flow after it, is all
that is to be shown below it. -/
theorem ink_content (h : page.tree.Planted) (hid : page.FlowsPlainly id)
    (he : page.tree.element? id = some e) (s : Style) (zone : Zone) :
    Command.ink (page.content id e s zone).commands ++
        page.restInk id (page.content id e s zone).value =
      (page.tree.children id).flatMap page.shownInk := by
  have hplain : e.tag ∉ ["li", "table", "img"] := fun hmem =>
    hid.plain id (h.self_mem_subtree id) e.tag hmem (Tree.isTag_of_element? he)
  simp only [List.mem_cons, List.not_mem_nil, or_false, not_or] at hplain
  obtain ⟨hli, htable, himg⟩ := hplain
  rw [content]
  -- one case for each tag with contents of its own, then the plain boxes
  split
  · have hnone : page.restInk id (page.paragraph id s zone).value = [] := rfl
    rw [ink_paragraph, ink_piecesWithin h hid (Nat.le_add_right page.tree.size id), hnone,
      List.append_nil]
  · next htag => exact absurd htag himg
  · exact ink_flowingChildren_false h id
  · exact ink_flowingChildren_false h id
  · next htag => exact absurd htag hli
  · next htag => exact absurd htag htable
  · split
    · exact ink_inlineBox h id s zone
    · exact ink_blockBox h id s zone

/-! ## The flow -/

variable {place : Placement}

/-- A flow of nodes draws what each of them draws. -/
theorem ink_flow {cs : List NodeId} {ink : NodeId → List Char}
    (hplace : ∀ c ∈ cs, ∀ zone inline, Command.ink (place c zone inline).commands = ink c)
    (zone : Zone) (parentInline : Bool) (cursor : FlowCursor) :
    Command.ink (page.flow place zone parentInline cursor cs).commands = cs.flatMap ink := by
  induction cs generalizing cursor with
  | nil => rfl
  | cons c cs ih =>
    obtain ⟨hc, hcs⟩ := List.forall_mem_cons.1 hplace
    simp only [flow, Draw.commands_bind, Command.ink_append]
    rw [hc, ih hcs, List.flatMap_cons]

theorem mem_children_of_mem_flowingChildren {skipFirstText : Bool}
    (hc : c ∈ page.flowingChildren id skipFirstText) : c ∈ page.tree.children id := by
  have hmem := (List.mem_filter.1 hc).1
  split at hmem
  · next first rest hchildren =>
    split at hmem
    · exact hchildren ▸ List.mem_cons_of_mem first hmem
    · exact hmem
  · exact absurd hmem List.not_mem_nil

theorem ink_flowChildren {ink : NodeId → List Char}
    (hplace : ∀ c ∈ page.tree.children id, ∀ zone inline,
      Command.ink (place c zone inline).commands = ink c)
    (zone : Zone) (skipFirstText : Bool) :
    Command.ink (page.flowChildren place id zone skipFirstText).commands =
      (page.flowingChildren id skipFirstText).flatMap ink := by
  simp only [flowChildren, Draw.commands_bind, Draw.commands_pure, List.append_nil]
  exact ink_flow (fun c hc => hplace c (mem_children_of_mem_flowingChildren hc)) _ _ _

/-- An element draws its content somewhere, and behind that the children that it has left to its
flow. -/
theorem exists_commands_shownElement
    (hplace : ∀ c ∈ page.tree.children id, ∀ zone inline,
      Command.ink (place c zone inline).commands = page.shownInk c)
    (e : Element) (zone : Zone) (inline : Bool) :
    ∃ zone' rest,
      (page.shownElement place id e zone inline).commands =
        (page.content id e (page.style id) zone').commands ++ rest ∧
      Command.ink rest = page.restInk id (page.content id e (page.style id) zone').value ∧
      ((page.content id e (page.style id) zone').value.children = none → rest = []) := by
  refine ⟨_, _, rfl, ?_⟩
  generalize (page.content id e (page.style id) _).value = content
  simp only [restInk]
  cases content.children with
  | none => exact ⟨rfl, fun _ => rfl⟩
  | some flow =>
    constructor
    · simp only [Draw.commands_bind, Draw.commands_pure, ink_flowChildren hplace, List.append_nil]
    · exact fun hnone => absurd hnone (Option.some_ne_none flow)

theorem ink_shownElement
    (hplace : ∀ c ∈ page.tree.children id, ∀ zone inline,
      Command.ink (place c zone inline).commands = page.shownInk c)
    (h : page.tree.Planted) (hid : page.FlowsPlainly id) (he : page.tree.element? id = some e)
    (zone : Zone) (inline : Bool) :
    Command.ink (page.shownElement place id e zone inline).commands =
      (page.tree.children id).flatMap page.shownInk := by
  obtain ⟨zone', rest, hcommands, hrest, -⟩ := exists_commands_shownElement hplace e zone inline
  rw [hcommands, Command.ink_append, hrest]
  exact ink_content h hid he (page.style id) zone'

/-! ## The whole layout -/

/-- A node that is laid out with enough levels for its depth draws all that is to be shown of it.
The induction is on the levels. -/
theorem ink_place (h : page.tree.Planted) {levels : ℕ} {id : NodeId} (hid : page.FlowsPlainly id)
    (hlevels : levels + page.tree.depth id = maxDepth + 1) (zone : Zone) (inline : Bool) :
    Command.ink (page.place levels id zone inline).commands = page.shownInk id := by
  induction levels generalizing id zone inline with
  | zero =>
    have hdepth := hid.shallow id (h.self_mem_subtree id)
    omega
  | succ levels ih =>
    have hplace : ∀ c ∈ page.tree.children id, ∀ zone inline,
        Command.ink (page.place levels c zone inline).commands = page.shownInk c := by
      intro c hc zone inline
      refine ih (hid.child h hc) ?_ zone inline
      rw [h.ordered.depth_of_mem_children hc]
      omega
    rw [place]
    cases hkind : (page.tree.get? id).map Node.kind with
    | none => exact (shownInk_none h hkind).symm
    | some kind =>
      cases kind with
      | document =>
        rw [shownInk_document h hkind, ← ink_flowingChildren_false h]
        exact ink_flowChildren hplace zone false
      | element e =>
        have he : page.tree.element? id = some e := by rw [Tree.element?, hkind]
        show Command.ink (page.element (page.place levels) id e zone inline).commands = _
        rw [shownInk_element h hkind, element]
        split
        · rfl
        · exact ink_shownElement hplace h hid he zone inline
      | text content =>
        rw [shownInk_text h hkind]
        exact ink_layoutText page id content zone inline
      | comment content => exact (shownInk_comment h hkind).symm

/-- The node whose children are laid out for a document: the body element, if there is one. -/
def start (page : Page) : NodeId := page.tree.body?.getD Tree.root

/-- The levels below its start that a document is laid out with. -/
def documentLevels (page : Page) : ℕ :=
  match page.tree.body? with
  | some body => maxDepth - page.tree.depth body
  | none => maxDepth

theorem documentLevels_eq (h : page.tree.Ordered) :
    page.documentLevels = maxDepth - page.tree.depth page.start := by
  rw [documentLevels, start]
  cases page.tree.body? with
  | some body => rfl
  | none => rw [Option.getD_none, h.depth_root, Nat.sub_zero]

/-- A document draws what the children of its start draw. -/
theorem ink_document_of_place {ink : NodeId → List Char}
    (hplace : ∀ c ∈ page.tree.children page.start, ∀ zone inline,
      Command.ink (page.place page.documentLevels c zone inline).commands = ink c)
    (size : CanvasSize) :
    Command.ink (page.document size).commands =
      (page.flowingChildren page.start false).flatMap ink := by
  have hcontent : Command.ink (page.documentContent size).commands =
      (page.flowingChildren page.start false).flatMap ink := by
    rw [documentContent]
    rw [start, documentLevels] at hplace
    rw [start]
    cases hbody : page.tree.body? with
    | some body =>
      rw [hbody] at hplace
      exact ink_flowChildren hplace _ false
    | none =>
      rw [hbody] at hplace
      exact ink_flowChildren hplace _ false
  simp only [document, Draw.draw, Draw.commands_bind, Draw.commands_pure, Command.ink_append,
    Command.ink_fill, hcontent, List.nil_append, List.append_nil]

/-- A document draws all that is to be shown below its start. -/
theorem ink_document (h : page.tree.Planted)
    (hplain : ∀ c ∈ page.tree.children page.start, page.FlowsPlainly c) (size : CanvasSize) :
    Command.ink (page.document size).commands =
      (page.tree.children page.start).flatMap page.shownInk := by
  rw [← ink_flowingChildren_false h]
  apply ink_document_of_place
  intro c hc zone inline
  have hdepth := (hplain c hc).shallow c (h.self_mem_subtree c)
  refine ink_place h (hplain c hc) ?_ zone inline
  rw [documentLevels_eq h.ordered]
  rw [h.ordered.depth_of_mem_children hc] at hdepth ⊢
  omega

end Page

namespace LayoutPass

/-- Laying out a node of the tree of a description adds commands to those drawn before, and the ink
of what is added is that of the texts to be shown of the node, none lost, repeated or moved. -/
theorem layout_draws_shown_text (pass : LayoutPass) {spec : Spec}
    (htree : pass.page.tree = spec.toTree) {id : NodeId} (hid : pass.page.FlowsPlainly id)
    (zone : Zone) :
    ∃ added, (pass.layout id zone).2.commands = pass.commands ++ added ∧
      Command.ink added =
        (pass.page.shownTexts id).flatMap fun content => Text.ink content.toList := by
  have h : pass.page.tree.Planted := htree ▸ spec.planted_toTree
  refine ⟨(pass.page.layout id zone).commands, rfl, ?_⟩
  have hdepth := hid.shallow id (h.self_mem_subtree id)
  exact Page.ink_place h hid (by omega) zone false

/-- A block with a text, a hidden element and a paragraph with a line break in it draws its texts
but for the hidden one. -/
theorem layout_draws_text_around_hidden :
    let spec : Spec := .element "div" [] [.text " a\n", .element "b" [] [.text "hidden"],
      .element "p" [] [.text "c", .element "br" [] [], .element "em" [] [.text "d e"]]]
    let styles : StyleMap := .ofList 10 [(3, Style.ofPairs [("display", "none")])]
    let pass : LayoutPass := { page := { tree := spec.toTree, styles } }
    pass.page.FlowsPlainly 1 ∧
      ∃ added, (pass.layout 1 (.ofSize 0 0 500 300)).2.commands = [] ++ added ∧
        Command.ink added = ['a', 'c', 'd', 'e'] := by
  intro spec styles pass
  have hid : pass.page.FlowsPlainly 1 := by decide +kernel
  have hshown : ((pass.page.shownTexts 1).flatMap fun content => Text.ink content.toList) =
      ['a', 'c', 'd', 'e'] := by
    decide +kernel
  rw [← hshown]
  exact ⟨hid, layout_draws_shown_text pass rfl hid _⟩

end LayoutPass

end BoxFlow
