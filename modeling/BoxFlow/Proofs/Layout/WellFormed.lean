import BoxFlow.Dom.Spec
import BoxFlow.Layout.Document
import BoxFlow.Proofs.Text.Normal

/-!
# The commands of a layout

Every command of a layout is well formed: a rectangle that is filled leaves a trace, a text that is
drawn is not empty and is normal, an image is drawn at its own size. And a canvas that can show
anything is filled first (`Page.document_wellFormed`).

The property is one of the commands drawn on the way to a value, and it passes through the steps of
a layout (`Draw.IsWellFormed.bind`). So it is enough to look at the places where something is drawn:
boxes, runs of text, markers, images. The texts they are given are normal because each of them is
normalized where it is read, or is a number. What is drawn of a node is then well formed by
induction on the levels that are laid out.
-/

set_option autoImplicit false

namespace BoxFlow

/-! ## Well-formed commands -/

/-- A rectangle has a size and a color that shows, a text is normal and not empty, and an image is
drawn at its own size. -/
def Command.IsWellFormed : Command → Prop
  | fillRect bounds color => bounds.width ≠ 0 ∧ bounds.height ≠ 0 ∧ color.a ≠ 0
  | fillCircle _ _ _ _ => True
  | drawText _ run => run.text ≠ "" ∧ Text.IsNormal run.text.toList
  | drawImage bounds image => bounds.width = image.width ∧ bounds.height = image.height

namespace Draw

variable {α β : Type}

/-- All commands drawn on the way to a value are well formed. -/
def IsWellFormed (d : Draw α) : Prop := ∀ command ∈ d.commands, command.IsWellFormed

namespace IsWellFormed

theorem pure (a : α) : (Pure.pure a : Draw α).IsWellFormed :=
  fun _ hmem => absurd hmem List.not_mem_nil

theorem warn (warnings : List Warning) : (Draw.warn warnings).IsWellFormed :=
  fun _ hmem => absurd hmem List.not_mem_nil

theorem require (inRange : Bool) (operation : Overflow) :
    (Draw.require inRange operation).IsWellFormed :=
  fun _ hmem => absurd hmem List.not_mem_nil

/-- A sequence of steps draws what each of them draws. -/
theorem bind {x : Draw α} {f : α → Draw β} (hx : x.IsWellFormed) (hf : ∀ a, (f a).IsWellFormed) :
    (x >>= f).IsWellFormed := by
  intro command hmem
  rw [commands_bind, List.mem_append] at hmem
  exact hmem.elim (hx command) (hf x.value command)

theorem draw {command : Command} (h : command.IsWellFormed) :
    (Draw.draw [command]).IsWellFormed :=
  List.forall_mem_singleton.2 h

end IsWellFormed

end Draw

/-! ## Boxes -/

/-- A rectangle is filled only if that leaves a trace. -/
theorem Command.isWellFormed_of_mem_fill {bounds : Rect} {color : Color} {command : Command}
    (h : command ∈ fill bounds color) : command.IsWellFormed := by
  rw [fill] at h
  split at h
  · exact absurd h List.not_mem_nil
  · next htrace =>
    rw [List.mem_singleton] at h
    subst h
    simpa [Rect.isEmpty, IsWellFormed, and_assoc] using htrace

/-- The canvas is filled if it has a size and a color that shows. -/
theorem Command.fill_eq {bounds : Rect} {color : Color} (hwidth : bounds.width ≠ 0)
    (hheight : bounds.height ≠ 0) (ha : color.a ≠ 0) :
    fill bounds color = [.fillRect bounds color] := by
  rw [fill, if_neg]
  simpa [Rect.isEmpty] using ⟨⟨hwidth, hheight⟩, ha⟩

theorem BoxExtent.isWellFormed_draw (s : Style) (zone : Zone)
    (maxHeight maxWidth : Option Float32) :
    (BoxExtent.draw s zone maxHeight maxWidth).IsWellFormed := by
  intro command hmem
  rw [BoxExtent.draw] at hmem
  simp only [BoxExtent.paint, List.mem_append, or_assoc] at hmem
  -- the background and each side are filled, or left out
  rcases hmem with hmem | hmem | hmem | hmem | hmem
  all_goals
    split at hmem
    · exact Command.isWellFormed_of_mem_fill hmem
    · exact absurd hmem List.not_mem_nil

namespace Page

variable {page : Page} {id : NodeId} {text : List Char}

/-! ## Texts -/

/-- A run of a normal text is drawn, unless the text is empty. -/
theorem isWellFormed_drawText (page : Page) (s : Style) (h : Text.IsNormal text) (x y : Float32) :
    (page.drawText s text x y).IsWellFormed := by
  rw [drawText]
  split
  · exact .pure _
  · next hempty =>
    refine List.forall_mem_singleton.2 ⟨?_, ?_⟩
    · intro heq
      have htext : text = [] := String.toList_ofList.symm.trans (congrArg String.toList heq)
      exact hempty (htext ▸ rfl)
    · rw [run, String.toList_ofList]
      exact h

theorem isWellFormed_drawLines (page : Page) (s : Style) (x y : Float32)
    {lines : List (List Char)} (h : ∀ line ∈ lines, Text.IsNormal line) :
    (page.drawLines s x y lines).IsWellFormed := by
  induction lines generalizing y with
  | nil => exact .pure y
  | cons line lines ih =>
    obtain ⟨hline, hrest⟩ := List.forall_mem_cons.1 h
    exact .bind (isWellFormed_drawText page s hline x y) fun _ => ih _ hrest

theorem isWellFormed_layoutText (page : Page) (id : NodeId) (content : String) (zone : Zone)
    (inline : Bool) : (page.layoutText id content zone inline).IsWellFormed := by
  have htext := Text.isNormal_visible content.toList
  rw [layoutText]
  split
  · exact .pure _
  · split
    · refine isWellFormed_drawText page _ ?_ _ _
      split
      · exact htext.append Text.isNormal_space
      · exact htext
    · exact .bind (isWellFormed_drawLines page _ _ _ (Text.isNormal_wrap _ _ _ htext))
        fun _ => .pure _

/-- The text with which children start is normalized. -/
theorem isNormal_leadingText? (h : page.leadingText? id = some text) : Text.IsNormal text := by
  rw [leadingText?] at h
  split at h
  · cases h
  · next content hcontent =>
    simp only [Option.ite_none_left_eq_some, Option.some.injEq] at h
    exact h.2 ▸ Text.isNormal_visible content.toList

theorem isNormal_getD {text? : Option (List Char)}
    (h : ∀ text, text? = some text → Text.IsNormal text) : Text.IsNormal (text?.getD []) := by
  cases text? with
  | none => exact Text.isNormal_nil
  | some text => exact h text rfl

/-! ## What elements draw of themselves -/

theorem isWellFormed_inlineBox (page : Page) (id : NodeId) (s : Style) (zone : Zone) :
    (page.inlineBox id s zone).IsWellFormed := by
  refine .bind (BoxExtent.isWellFormed_draw _ _ _ _) fun extent => ?_
  refine .bind (isWellFormed_drawText page s (isNormal_getD ?_) _ _) fun _ => .pure _
  intro text htext
  obtain ⟨own, hown, rfl⟩ := Option.map_eq_some_iff.1 htext
  split
  · exact (isNormal_leadingText? hown).append Text.isNormal_space
  · exact isNormal_leadingText? hown

theorem isWellFormed_blockBox (page : Page) (id : NodeId) (s : Style) (zone : Zone) :
    (page.blockBox id s zone).IsWellFormed := by
  refine .bind (BoxExtent.isWellFormed_draw _ _ _ _) fun extent => ?_
  exact .bind (isWellFormed_drawText page s (isNormal_getD fun _ => isNormal_leadingText?) _ _)
    fun _ => .pure _

theorem isNormal_of_mem_wrappedLines (page : Page) (width size : Float32)
    {lines : List (List Char)} (h : ∀ line ∈ lines, Text.IsNormal line) :
    ∀ line ∈ page.wrappedLines width size lines, Text.IsNormal line := by
  intro line hline
  rw [wrappedLines] at hline
  split at hline
  · exact absurd hline List.not_mem_nil
  · obtain ⟨whole, hwhole, hpart⟩ := List.mem_flatMap.1 hline
    split at hpart
    · rw [List.mem_singleton.1 hpart]
      exact Text.isNormal_nil
    · exact Text.isNormal_wrap _ _ _ (h whole hwhole) line hpart

theorem isWellFormed_paragraph (page : Page) (id : NodeId) (s : Style) (zone : Zone) :
    (page.paragraph id s zone).IsWellFormed := by
  have hlines : ∀ line ∈ page.paragraphLines id, Text.IsNormal line := by
    intro line hline
    obtain ⟨pieces, -, rfl⟩ := List.mem_map.1 hline
    exact Text.isNormal_visible _
  refine .bind (BoxExtent.isWellFormed_draw _ _ _ _) fun extent => ?_
  exact .bind (isWellFormed_drawLines page s _ _ (isNormal_of_mem_wrappedLines page _ _ hlines))
    fun _ => .pure _

theorem isWellFormed_picture (page : Page) (e : Element) (zone : Zone) :
    (page.picture e zone).IsWellFormed := by
  rw [picture]
  split
  · exact .bind (.warn _) fun _ => .pure _
  · refine .bind (.warn _) fun _ => ?_
    split
    · exact .bind (.warn _) fun _ => .pure _
    · exact .bind (.draw ⟨rfl, rfl⟩) fun _ => .pure _

theorem isWellFormed_drawMarker (page : Page) (s : Style) (zone : Zone) (marker : Option Marker) :
    (page.drawMarker s zone marker).IsWellFormed := by
  unfold drawMarker
  split
  · exact .pure ()
  · split
    · exact .pure ()
    · exact .draw trivial
    · next n =>
      have hnumber : Text.IsNormal ((toString n).toList ++ ['.']) :=
        (Text.isNormal_toString n).append (by decide)
      exact .bind (isWellFormed_drawText page s hnumber _ _) fun _ => .pure _

theorem isWellFormed_listItem (page : Page) (id : NodeId) (s : Style) (zone : Zone) :
    (page.listItem id s zone).IsWellFormed := by
  refine .bind (.require _ _) fun _ => .bind (isWellFormed_drawMarker page s zone _) fun _ => ?_
  dsimp only
  split
  · exact .pure _
  · next text htext =>
    refine .bind (isWellFormed_drawText page s ?_ _ _) fun _ => .pure _
    rcases Option.or_eq_some_iff.1 htext with hown | ⟨-, hborrowed⟩
    · exact isNormal_leadingText? hown
    · obtain ⟨first, -, hfirst⟩ := Option.bind_eq_some_iff.1 hborrowed
      exact isNormal_leadingText? hfirst

theorem isWellFormed_drawCell (page : Page) (cell : NodeId) (zone : Zone) :
    (page.drawCell cell zone).IsWellFormed := by
  refine .bind (BoxExtent.isWellFormed_draw _ _ _ _) fun extent => ?_
  exact .bind (isWellFormed_drawText page _ (Text.isNormal_visible _) _ _) fun _ => .pure _

theorem isWellFormed_drawCells (page : Page) (zone : Zone) (x tallest : Float32)
    (cells : List NodeId) : (page.drawCells zone x tallest cells).IsWellFormed := by
  induction cells generalizing x tallest with
  | nil => exact .pure tallest
  | cons cell cells ih => exact .bind (isWellFormed_drawCell page cell _) fun _ => ih _ _

theorem isWellFormed_drawRows (page : Page) (zone : Zone) (y : Float32) (rows : List NodeId) :
    (page.drawRows zone y rows).IsWellFormed := by
  induction rows generalizing y with
  | nil => exact .pure y
  | cons row rows ih => exact .bind (isWellFormed_drawCells page _ _ _ _) fun _ => ih _

theorem isWellFormed_table (page : Page) (id : NodeId) (zone : Zone) :
    (page.table id zone).IsWellFormed := by
  rw [table]
  split
  · exact .bind (.warn _) fun _ => .pure _
  · exact .bind (isWellFormed_drawRows page zone _ _) fun _ => .pure _

theorem isWellFormed_content (page : Page) (id : NodeId) (e : Element) (s : Style) (zone : Zone) :
    (page.content id e s zone).IsWellFormed := by
  rw [content]
  split
  · exact isWellFormed_paragraph page id s zone
  · exact isWellFormed_picture page e zone
  · exact .pure _
  · exact .pure _
  · exact isWellFormed_listItem page id s zone
  · exact isWellFormed_table page id zone
  · split
    · exact isWellFormed_inlineBox page id s zone
    · exact isWellFormed_blockBox page id s zone

/-! ## The flow -/

section Flow

variable {place : Placement} (hplace : ∀ id zone inline, (place id zone inline).IsWellFormed)

include hplace

theorem isWellFormed_flow (page : Page) (zone : Zone) (parentInline : Bool) (cursor : FlowCursor)
    (children : List NodeId) :
    (page.flow place zone parentInline cursor children).IsWellFormed := by
  induction children generalizing cursor with
  | nil => exact .pure cursor
  | cons child children ih => exact .bind (hplace child _ _) fun _ => ih _

theorem isWellFormed_flowChildren (page : Page) (id : NodeId) (zone : Zone)
    (skipFirstText : Bool) : (page.flowChildren place id zone skipFirstText).IsWellFormed :=
  .bind (isWellFormed_flow hplace page zone _ _ _) fun _ => .pure _

theorem isWellFormed_shownElement (page : Page) (id : NodeId) (e : Element) (zone : Zone)
    (inline : Bool) : (page.shownElement place id e zone inline).IsWellFormed := by
  refine .bind (isWellFormed_content page id e _ _) fun content => ?_
  dsimp only
  split
  · exact .bind (.pure _) fun _ => .pure _
  · refine .bind (isWellFormed_flowChildren hplace page id _ _) fun _ => ?_
    exact .bind (.pure _) fun _ => .pure _

end Flow

/-! ## The whole layout -/

/-- What is drawn of a node is well formed. -/
theorem isWellFormed_place (page : Page) (levels : Nat) (id : NodeId) (zone : Zone)
    (inline : Bool) : (page.place levels id zone inline).IsWellFormed := by
  induction levels generalizing id zone inline with
  | zero => exact .bind (.warn _) fun _ => .pure _
  | succ levels ih =>
    rw [place]
    split
    · next e _ =>
      rw [element]
      split
      · exact .pure _
      · exact isWellFormed_shownElement ih page id e zone inline
    · exact isWellFormed_layoutText page id _ zone inline
    · exact isWellFormed_flowChildren ih page id zone false
    · exact .pure _

theorem isWellFormed_documentContent (page : Page) (size : CanvasSize) :
    (page.documentContent size).IsWellFormed := by
  rw [documentContent]
  split
  · exact isWellFormed_flowChildren (isWellFormed_place page _) page _ _ _
  · exact isWellFormed_flowChildren (isWellFormed_place page _) page _ _ _

/-- Every command of the layout of a document is well formed. If the canvas is not empty and its
color not invisible, the first command fills exactly the canvas. -/
theorem document_wellFormed (page : Page) (size : CanvasSize) :
    (∀ command ∈ (page.document size).commands, command.IsWellFormed) ∧
      (size.width ≠ 0 → size.height ≠ 0 → page.canvasColor.a ≠ 0 →
        (page.document size).commands.head? =
          some (.fillRect ⟨0, 0, size.width, size.height⟩ page.canvasColor)) := by
  have hcanvas : (Draw.draw (Command.fill size.rect page.canvasColor)).IsWellFormed :=
    fun _ => Command.isWellFormed_of_mem_fill
  have hdocument : (page.document size).IsWellFormed :=
    .bind hcanvas fun _ => .bind (isWellFormed_documentContent page size) fun _ => .pure ()
  constructor
  · exact hdocument
  · intro hwidth hheight ha
    have hcommands : (page.document size).commands =
        Command.fill size.rect page.canvasColor ++ ((page.documentContent size).commands ++ []) :=
      rfl
    rw [hcommands, Command.fill_eq hwidth hheight ha]
    rfl

/-- The canvas of a page without colors is filled with white before the items of a list are
drawn. -/
theorem document_wellFormed_of_list :
    let items : List Spec := [.element "li" [] [.text " a\n b"], .element "li" [] []]
    let page : Page := { tree := (Spec.element "body" [] [.element "ol" [] items]).toTree }
    page.canvasColor.a ≠ 0 ∧ (∀ command ∈ (page.document {}).commands, command.IsWellFormed) ∧
      (page.document {}).commands.head? = some (.fillRect ⟨0, 0, 500, 300⟩ .white) := by
  intro items page
  have hcolor : page.canvasColor = .white := by decide +kernel
  have ha : page.canvasColor.a ≠ 0 := hcolor ▸ by decide
  obtain ⟨hcommands, hfirst⟩ := document_wellFormed page {}
  refine ⟨ha, hcommands, ?_⟩
  rw [hfirst (by decide) (by decide) ha, hcolor]

end Page

end BoxFlow
