import BoxFlow.Layout.Boxes
import BoxFlow.Layout.ListItem
import BoxFlow.Layout.Paragraph
import BoxFlow.Layout.Picture
import BoxFlow.Layout.Table

/-!
# The flow of nodes

Children that stay within a line move a cursor to the right; any other child
starts at the left edge below the line so far and moves the cursor down. An
element puts its margin around itself, draws its content, and lets its children
flow.

What an element draws of itself is decided by its tag, and how it stands among
its siblings by its display property.
-/

namespace BoxFlow

/-- Lays out a node in a zone, within a line or not. -/
abbrev Placement := NodeId → Zone → Bool → Draw Consumed

/-- Where the next child goes: its position, the height of the line so far, and
the greatest width reached. -/
structure FlowCursor where
  x : Float32
  y : Float32
  lineHeight : Float32 := 0
  widest : Float32 := 0

namespace FlowCursor

/-- Goes to the left edge below the line so far, if it has a height. -/
def closeLine (cursor : FlowCursor) (left : Float32) : FlowCursor :=
  if 0 < cursor.lineHeight then
    { cursor with x := left, y := cursor.y + cursor.lineHeight, lineHeight := 0 }
  else cursor

/-- Goes past a child that has used up some space. -/
def advance (cursor : FlowCursor) (left : Float32) (inline : Bool) (used : Consumed) :
    FlowCursor :=
  let cursor :=
    if inline then
      { cursor with
        x := cursor.x + used.width, lineHeight := max32 cursor.lineHeight used.height }
    else { cursor with y := cursor.y + used.height }
  { cursor with widest := max32 cursor.widest (cursor.x - left) }

end FlowCursor

namespace Page

/-- Lays out children one after the other. -/
def flow (page : Page) (place : Placement) (zone : Zone) (parentInline : Bool) :
    FlowCursor → List NodeId → Draw FlowCursor
  | cursor, [] => pure cursor
  | cursor, child :: children => do
    let inline := page.flowsInline child parentInline
    let cursor := if inline then cursor else cursor.closeLine zone.x
    let used ← place child { zone with x := cursor.x, y := cursor.y } inline
    page.flow place zone parentInline (cursor.advance zone.x inline used) children

/-- The children of a node that are laid out: no comments, and not a first text
that is already drawn. -/
def flowingChildren (page : Page) (id : NodeId) (skipFirstText : Bool) : List NodeId :=
  let children := page.tree.children id
  let rest := match children with
    | first :: rest =>
      if skipFirstText && (page.tree.text? first).isSome then rest else children
    | [] => []
  rest.filter fun child => !page.tree.isComment child

/-- Lays out the children of a node in a zone. -/
def flowChildren (page : Page) (place : Placement) (id : NodeId) (zone : Zone)
    (skipFirstText : Bool) : Draw Consumed := do
  let last ← page.flow place zone (page.flowsInline id false) { x := zone.x, y := zone.y }
    (page.flowingChildren id skipFirstText)
  pure { width := last.widest, height := last.y - zone.y + last.lineHeight }

/-- What an element draws of itself. -/
def content (page : Page) (id : NodeId) (e : Element) (s : Style) (zone : Zone) : Draw Content :=
  match e.tag with
  | "p" => page.paragraph id s zone
  | "img" => page.picture e zone
  | "ul" | "ol" => pure (list s)
  | "li" => page.listItem id s zone
  | "table" => page.table id zone
  | tag => if inlineTags.contains tag then page.inlineBox id s zone else page.blockBox id s zone

/-- Lays out an element that is shown: margin, content, children. -/
def shownElement (page : Page) (place : Placement) (id : NodeId) (e : Element) (zone : Zone)
    (inline : Bool) : Draw Consumed := do
  let s := page.style id
  let marginTop := s.lengthOrZero "margin-top"
  let marginBottom := s.lengthOrZero "margin-bottom"
  let marginLeft := s.lengthOrZero "margin-left"
  let zone := { zone with x := max32 zone.x marginLeft, y := zone.y + marginTop }
  let content ← page.content id e s zone
  let (width, height) ← match content.children with
    | none => pure (content.width, content.height)
    | some flow => do
      let used ← page.flowChildren place id
        { zone with x := zone.x + flow.dx, y := zone.y + flow.dy } flow.skipFirstText
      pure (max32 content.width (flow.dx + used.width),
        max32 content.height (flow.dy + used.height))
  let height := height + content.trailing
  pure <|
    if inline then { width, height := marginTop + height }
    else { width := 0, height := marginTop + height + marginBottom }

/-- Lays out an element; a hidden one leaves no trace. -/
def element (page : Page) (place : Placement) (id : NodeId) (e : Element) (zone : Zone)
    (inline : Bool) : Draw Consumed :=
  if page.isHidden id then pure {} else page.shownElement place id e zone inline

/-- Lays out a node with what lies up to `levels - 1` levels below it. -/
def place (page : Page) : Nat → Placement
  | 0, _, _, _ => do
    .warn [.layout ("tree deeper than " ++ toString maxDepth ++
      " levels; deeper nodes are not laid out")]
    pure {}
  | levels + 1, id, zone, inline =>
    match (page.tree.get? id).map Node.kind with
    | some (.element e) => page.element (page.place levels) id e zone inline
    | some (.text content) => page.layoutText id content zone inline
    | some .document => page.flowChildren (page.place levels) id zone false
    | _ => pure {}

/-- Lays out a node and everything below it, down to `maxDepth` levels below the
document. -/
def layout (page : Page) (id : NodeId) (zone : Zone) : Draw Consumed :=
  page.place (maxDepth + 1 - page.tree.depth id) id zone false

end Page

end BoxFlow
