import BoxFlow.Layout.Document

/-!
# Layout onto an output

A layout gives what it draws as a value. The same layout is written here as a
program with one output that every step adds to, command by command, wherever in
the recursion something is drawn. A pass keeps such an output over several nodes.
Whether a layout fails is not told on an output, only by its value
(`Draw.overflow`).
-/

namespace BoxFlow

/-- What has been drawn so far, and warned about. -/
structure Output where
  commands : List Command := []
  warnings : List Warning := []

/-- A step of a program that draws onto an output. -/
abbrev Drawing (α : Type) := StateM Output α

namespace Drawing

variable {α : Type}

/-- Adds a command to the output. -/
def draw (command : Command) : Drawing Unit :=
  modify fun out => { out with commands := out.commands ++ [command] }

/-- Adds a warning to the output. -/
def warn (warning : Warning) : Drawing Unit :=
  modify fun out => { out with warnings := out.warnings ++ [warning] }

/-- Adds what a single piece draws and warns about, one after the other. -/
def emit (piece : Draw α) : Drawing α := do
  piece.warnings.forM warn
  piece.commands.forM draw
  pure piece.value

end Drawing

open Drawing (emit)

namespace Page

variable (page : Page)

/-! ## Texts and boxes -/

/-- Draws lines below each other onto the output. -/
def drawLinesOnto (s : Style) (x : Float32) : Float32 → List (List Char) → Drawing Float32
  | y, [] => pure y
  | y, line :: lines => do
    let _ ← emit (page.drawText s line x y)
    drawLinesOnto s x (y + page.lineHeight s) lines

/-- Lays out a text onto the output. -/
def layoutTextOnto (id : NodeId) (content : String) (zone : Zone) (inline : Bool) :
    Drawing Consumed :=
  let text := Text.visible content.toList
  let s := page.style id
  if text.isEmpty then pure {}
  else if inline then
    emit (page.drawText s (if (page.tree.next? id).isSome then text ++ [' '] else text)
      zone.x zone.y)
  else do
    let bottom ← page.drawLinesOnto s zone.x zone.y
      (Text.wrap page.metrics zone.width s.fontSize text)
    pure { width := 0, height := bottom - zone.y + textGap }

/-- The box of an element within a line, onto the output. -/
def inlineBoxOnto (id : NodeId) (s : Style) (zone : Zone) : Drawing Content := do
  let followed := 1 < (page.tree.children id).length || (page.tree.next? id).isSome
  let text := (page.leadingText? id).map fun text => if followed then text ++ [' '] else text
  let textWidth := (text.map (page.textWidth s)).getD 0
  let maxWidth := if (s.get? "width").isNone then some textWidth else none
  let extent ← emit (BoxExtent.draw s zone (some (page.lineHeight s)) maxWidth)
  let _ ← emit (page.drawText s (text.getD []) (zone.x + extent.insetLeft)
    (zone.y + extent.insetTop))
  pure
    { width := extent.width
      height := extent.height
      children := some { dx := extent.width, dy := 0, skipFirstText := text.isSome } }

/-- The box of an element on a line of its own, onto the output. -/
def blockBoxOnto (id : NodeId) (s : Style) (zone : Zone) : Drawing Content := do
  let extent ← emit (BoxExtent.draw s zone (some (s.fontSize + s.fontSize / 5)) none)
  let hasHeight := (s.get? "height").isSome
  let text := page.leadingText? id
  let drawn ← emit (page.drawText s (text.getD []) (zone.x + extent.insetLeft)
    (zone.y + extent.insetTop))
  let textHeight := if text.isSome then drawn.height + textGap else 0
  let dy := extent.insetTop + textHeight
  pure
    { width := extent.width
      height := max32 (if hasHeight then extent.height else dy) dy
      trailing := if hasHeight then 0 else extent.insetBottom
      children := some { dx := extent.insetLeft, dy, skipFirstText := text.isSome } }

/-- A paragraph, onto the output. -/
def paragraphOnto (id : NodeId) (s : Style) (zone : Zone) : Drawing Content := do
  let padding := s.padding
  let width := (s.length? "width").getD (zone.width - padding.left - padding.right)
  let lines := page.wrappedLines width s.fontSize (page.paragraphLines id)
  let textHeight := page.lineHeight s * Float32.ofNat lines.length
  let extent ← emit (BoxExtent.draw s zone (some textHeight) none)
  let bottom ← page.drawLinesOnto s (zone.x + extent.insetLeft) (zone.y + extent.insetTop) lines
  pure
    { height := max32 extent.height (bottom - zone.y + extent.insetBottom) +
        if lines.isEmpty then 0 else textGap }

/-! ## Images -/

/-- The image of an element, onto the output. -/
def pictureOnto (e : Element) (zone : Zone) : Drawing Content :=
  match source? e with
  | none => do
    Drawing.warn (.image "img without a src attribute skipped")
    pure {}
  | some source => do
    let outcome := page.images source
    outcome.warnings.forM Drawing.warn
    match outcome.result with
    | .error e => do
      Drawing.warn (.image e.message)
      pure {}
    | .ok image => do
      Drawing.draw (.drawImage
        ⟨coordinateOf zone.x, coordinateOf zone.y, image.width, image.height⟩ image)
      pure { width := Float32.ofNat image.width, height := Float32.ofNat image.height }

/-! ## List items -/

/-- The marker of a list item, onto the output. -/
def drawMarkerOnto (s : Style) (zone : Zone) (marker : Option Marker) : Drawing Unit :=
  if Text.trimmed (s.value "list-style-type") = "none" then pure ()
  else match marker with
    | none => pure ()
    | some .disc =>
      let radius := s.fontSize / 4
      Drawing.draw (.fillCircle (coordinateOf (zone.x + radius))
        (coordinateOf (zone.y + s.fontSize / 3 + radius)) (extentOf radius) s.textColor)
    | some (.decimal n) => do
      let _ ← emit (page.drawText s ((toString n).toList ++ ['.']) zone.x zone.y)

/-- A list item, onto the output. -/
def listItemOnto (id : NodeId) (s : Style) (zone : Zone) : Drawing Content := do
  let gap := s.fontSize + s.lengthOrZero "padding-left"
  page.drawMarkerOnto s zone (page.tree.marker? id)
  let own := page.leadingText? id
  let borrowed := (page.tree.elementChildren id).head?.bind page.leadingText?
  match own.or borrowed with
  | none => pure { children := some { dx := gap, dy := 0 } }
  | some text =>
    let drawn ← emit (page.drawText s text (zone.x + gap) zone.y)
    let height := drawn.height + textGap
    pure
      { width := gap + drawn.width
        height
        children :=
          if own.isSome then some { dx := gap, dy := height, skipFirstText := true } else none }

/-! ## Tables -/

/-- A cell, onto the output. -/
def drawCellOnto (cell : NodeId) (zone : Zone) : Drawing BoxExtent := do
  let s := page.style cell
  let text := Text.visible (page.tree.textContent cell).toList
  let width := (s.length? "width").getD (max32 (page.textWidth s text) minCellWidth)
  let extent ← emit (BoxExtent.draw s zone (some (page.lineHeight s + textGap)) (some width))
  let _ ← emit (page.drawText s text (zone.x + extent.insetLeft) (zone.y + extent.insetTop))
  pure extent

/-- The cells of a row, onto the output. -/
def drawCellsOnto (zone : Zone) : Float32 → Float32 → List NodeId → Drawing Float32
  | _, tallest, [] => pure tallest
  | x, tallest, cell :: cells => do
    let extent ← page.drawCellOnto cell { zone with x }
    drawCellsOnto zone (x + extent.width) (max32 tallest extent.height) cells

/-- The rows of a table, onto the output. -/
def drawRowsOnto (zone : Zone) : Float32 → List NodeId → Drawing Float32
  | y, [] => pure y
  | y, row :: rows => do
    let height ← page.drawCellsOnto { zone with y } zone.x 0 (page.cells row)
    drawRowsOnto zone (y + height) rows

/-- A table, onto the output. -/
def tableOnto (id : NodeId) (zone : Zone) : Drawing Content :=
  match page.tableBody? id with
  | none => do
    Drawing.warn (.layout "table without a leading tbody is not laid out")
    pure {}
  | some body => do
    let bottom ← page.drawRowsOnto zone zone.y (page.rows body)
    pure { height := bottom - zone.y }

/-! ## Elements and their flow -/

/-- Lays out a node in a zone onto the output, within a line or not. -/
abbrev PlacementOnto := NodeId → Zone → Bool → Drawing Consumed

/-- What an element draws of itself, onto the output. -/
def contentOnto (id : NodeId) (e : Element) (s : Style) (zone : Zone) : Drawing Content :=
  match e.tag with
  | "p" => page.paragraphOnto id s zone
  | "img" => page.pictureOnto e zone
  | "ul" | "ol" => pure (list s)
  | "li" => page.listItemOnto id s zone
  | "table" => page.tableOnto id zone
  | tag =>
    if inlineTags.contains tag then page.inlineBoxOnto id s zone else page.blockBoxOnto id s zone

/-- Lays out children one after the other onto the output. -/
def flowOnto (place : PlacementOnto) (zone : Zone) (parentInline : Bool) :
    FlowCursor → List NodeId → Drawing FlowCursor
  | cursor, [] => pure cursor
  | cursor, child :: children => do
    let inline := page.flowsInline child parentInline
    let cursor := if inline then cursor else cursor.closeLine zone.x
    let used ← place child { zone with x := cursor.x, y := cursor.y } inline
    flowOnto place zone parentInline (cursor.advance zone.x inline used) children

/-- Lays out the children of a node onto the output. -/
def flowChildrenOnto (place : PlacementOnto) (id : NodeId) (zone : Zone) (skipFirstText : Bool) :
    Drawing Consumed := do
  let last ← page.flowOnto place zone (page.flowsInline id false) { x := zone.x, y := zone.y }
    (page.flowingChildren id skipFirstText)
  pure { width := last.widest, height := last.y - zone.y + last.lineHeight }

/-- Lays out an element that is shown onto the output. -/
def shownElementOnto (place : PlacementOnto) (id : NodeId) (e : Element) (zone : Zone)
    (inline : Bool) : Drawing Consumed := do
  let s := page.style id
  let marginTop := s.lengthOrZero "margin-top"
  let marginBottom := s.lengthOrZero "margin-bottom"
  let marginLeft := s.lengthOrZero "margin-left"
  let zone := { zone with x := max32 zone.x marginLeft, y := zone.y + marginTop }
  let content ← page.contentOnto id e s zone
  let (width, height) ← match content.children with
    | none => pure (content.width, content.height)
    | some flow => do
      let used ← page.flowChildrenOnto place id
        { zone with x := zone.x + flow.dx, y := zone.y + flow.dy } flow.skipFirstText
      pure (max32 content.width (flow.dx + used.width),
        max32 content.height (flow.dy + used.height))
  let height := height + content.trailing
  pure <|
    if inline then { width, height := marginTop + height }
    else { width := 0, height := marginTop + height + marginBottom }

/-- Lays out an element onto the output; a hidden one leaves no trace. -/
def elementOnto (place : PlacementOnto) (id : NodeId) (e : Element) (zone : Zone)
    (inline : Bool) : Drawing Consumed :=
  if page.isHidden id then pure {} else page.shownElementOnto place id e zone inline

/-- Lays out a node with what lies up to `levels - 1` levels below it, onto the output. -/
def placeOnto : Nat → PlacementOnto
  | 0, _, _, _ => do
    Drawing.warn (.layout ("tree deeper than " ++ toString maxDepth ++
      " levels; deeper nodes are not laid out"))
    pure {}
  | levels + 1, id, zone, inline =>
    match (page.tree.get? id).map Node.kind with
    | some (.element e) => page.elementOnto (placeOnto levels) id e zone inline
    | some (.text content) => page.layoutTextOnto id content zone inline
    | some .document => page.flowChildrenOnto (placeOnto levels) id zone false
    | _ => pure {}

/-- Lays out a node and everything below it onto the output. -/
def layoutOnto (id : NodeId) (zone : Zone) : Drawing Consumed :=
  page.placeOnto (maxDepth + 1 - page.tree.depth id) id zone false

end Page

/-! ## Passes -/

namespace LayoutPass

/-- What a pass has drawn so far. -/
def output (pass : LayoutPass) : Output := ⟨pass.commands, pass.warnings⟩

/-- Lays out nodes one after the other, and gives the space that each has used up. -/
def layoutAll (pass : LayoutPass) : List (NodeId × Zone) → List Consumed × LayoutPass
  | [] => ([], pass)
  | (id, zone) :: steps =>
    let (used, pass) := pass.layout id zone
    let (rest, pass) := pass.layoutAll steps
    (used :: rest, pass)

/-- A pass for the same page that has drawn nothing. -/
def fresh (pass : LayoutPass) : LayoutPass := { page := pass.page }

end LayoutPass

end BoxFlow
