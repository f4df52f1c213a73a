import BoxFlow.Cascade.Compute
import BoxFlow.Image.Source
import BoxFlow.Layout.Border
import BoxFlow.Layout.Lines

/-!
# Pages

A page is a styled tree together with what is needed to lay it out: a measure
for text and a loader for images. This module holds what all elements share:
whether a node stays within a line, the text an element starts with, and drawing
one run of text.
-/

namespace BoxFlow

/-- A styled tree with a measure for text and a loader for images. -/
structure Page where
  tree : Tree
  styles : StyleMap := .empty
  metrics : FontMetrics := .approximate
  images : ImageLoader := .none

/-- Where the children of an element go, relative to the origin of the element.
`skipFirstText` holds if the element has already drawn a text in front. -/
structure ChildFlow where
  dx : Float32
  dy : Float32
  skipFirstText : Bool := false

/-- What an element has drawn of itself. The space in `trailing` comes after the
children; an element without a flow has taken care of its children. -/
structure Content where
  width : Float32 := 0
  height : Float32 := 0
  trailing : Float32 := 0
  children : Option ChildFlow := none

/-- Elements that are as large as their text, with their children after it. -/
def inlineTags : List String :=
  ["a", "abbr", "address", "b", "cite", "code", "dfn", "em", "h1", "h2", "h3", "h4", "h5", "h6",
   "i", "kbd", "label", "mark", "q", "s", "samp", "small", "span", "strong", "sub", "sup", "u",
   "var"]

/-- Space between a text and what comes below it. -/
def textGap : Float32 := 2

namespace Page

/-- The style of a node. -/
def style (page : Page) (id : NodeId) : Style := page.styles.styleOf id

/-- Whether an element is left out with everything below it. -/
def isHidden (page : Page) (id : NodeId) : Bool := (page.style id).isHidden

/-- Whether a node stays within a line. Elements follow their display property,
or their tag where it is blank; images do not stay; texts follow their parent. -/
def flowsInline (page : Page) (id : NodeId) (parentInline : Bool) : Bool :=
  match (page.tree.get? id).map Node.kind with
  | some (.element e) =>
    let display := Text.trimmed ((page.style id).value "display")
    if display = "inline" ∨ display = "inline-block" then e.tag != "img"
    else display == "" && inlineTags.contains e.tag
  | some (.text _) => parentInline
  | _ => false

/-- The text with which the children of a node start, if there is something
visible in it. -/
def leadingText? (page : Page) (id : NodeId) : Option (List Char) :=
  match (page.tree.firstChild? id).bind page.tree.text? with
  | none => none
  | some content =>
    let text := Text.visible content.toList
    if text.isEmpty then none else some text

/-- Width of a text in a style. -/
def textWidth (page : Page) (s : Style) (text : List Char) : Float32 :=
  page.metrics.textWidth (.ofList text) s.fontSize

/-- Height of a line in a style. -/
def lineHeight (page : Page) (s : Style) : Float32 :=
  page.metrics.lineHeight s.fontSize

/-- The run of a text in a style. -/
def run (s : Style) (text : List Char) : TextRun where
  text := .ofList text
  fontSize := s.fontSize
  color := s.textColor
  fontStyle := s.fontStyle
  fontWeight := s.fontWeight

/-- Draws one run of text at a point and gives its width and height. An empty
text is not drawn and takes no space. -/
def drawText (page : Page) (s : Style) (text : List Char) (x y : Float32) : Draw Consumed :=
  if text.isEmpty then pure {}
  else
    let width := page.textWidth s text
    let height := page.lineHeight s
    { value := { width, height }
      commands := [.drawText (.ofLayout x y width height) (run s text)] }

/-- Draws lines below each other, an empty one as an empty space, and gives the
vertical position after the last one. -/
def drawLines (page : Page) (s : Style) (x : Float32) : Float32 → List (List Char) → Draw Float32
  | y, [] => pure y
  | y, line :: lines => do
    let _ ← page.drawText s line x y
    page.drawLines s x (y + page.lineHeight s) lines

/-- Lays out a text that no element has drawn. Within a line it is one run, with
a space behind it if something follows; otherwise it is broken to fit the zone. -/
def layoutText (page : Page) (id : NodeId) (content : String) (zone : Zone) (inline : Bool) :
    Draw Consumed :=
  let text := Text.visible content.toList
  let s := page.style id
  if text.isEmpty then pure {}
  else if inline then
    page.drawText s (if (page.tree.next? id).isSome then text ++ [' '] else text) zone.x zone.y
  else do
    let bottom ← page.drawLines s zone.x zone.y
      (Text.wrap page.metrics zone.width s.fontSize text)
    pure { width := 0, height := bottom - zone.y + textGap }

end Page

end BoxFlow
