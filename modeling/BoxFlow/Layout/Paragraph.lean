import BoxFlow.Layout.Page

/-!
# Paragraphs

A paragraph draws all text below it, whatever elements it stands in, broken into
lines that fit the box. An element for a line break starts a new line; hidden
elements contribute nothing.
-/

namespace BoxFlow

/-- A piece of a paragraph: a text, or the end of a line. -/
inductive ParagraphPiece where
  | text (content : String)
  | lineBreak
deriving DecidableEq, Repr

namespace ParagraphPiece

/-- The characters of a piece. -/
def chars : ParagraphPiece → List Char
  | text content => content.toList
  | lineBreak => []

/-- Whether the piece ends a line. -/
def isBreak : ParagraphPiece → Bool
  | text _ => false
  | lineBreak => true

end ParagraphPiece

namespace Page

/-- The pieces below a node, down to `limit` levels. -/
def piecesWithin (page : Page) : Nat → NodeId → List ParagraphPiece
  | 0, _ => []
  | limit + 1, id => (page.tree.children id).flatMap fun child =>
    match (page.tree.get? child).map Node.kind with
    | some (.text content) => [.text content]
    | some (.element e) =>
      if e.tag = "br" then [.lineBreak]
      else if page.isHidden child then []
      else page.piecesWithin limit child
    | _ => []

/-- The lines of a paragraph as its line breaks separate them. -/
def paragraphLines (page : Page) (id : NodeId) : List (List Char) :=
  ((page.piecesWithin page.tree.size id).splitOnP ParagraphPiece.isBreak).map fun line =>
    Text.visible (line.flatMap ParagraphPiece.chars)

/-- The lines of a paragraph broken to a width. A line without text stays, unless
there is no text at all. -/
def wrappedLines (page : Page) (width size : Float32) (lines : List (List Char)) :
    List (List Char) :=
  let wrapped := lines.flatMap fun line =>
    match Text.wrap page.metrics width size line with
    | [] => [[]]
    | parts => parts
  if wrapped.all List.isEmpty then [] else wrapped

/-- A paragraph: a box as high as its lines, and the lines in it. -/
def paragraph (page : Page) (id : NodeId) (s : Style) (zone : Zone) : Draw Content := do
  let padding := s.padding
  let width := (s.length? "width").getD (zone.width - padding.left - padding.right)
  let lines := page.wrappedLines width s.fontSize (page.paragraphLines id)
  let textHeight := page.lineHeight s * Float32.ofNat lines.length
  let extent ← BoxExtent.draw s zone (some textHeight) none
  let bottom ← page.drawLines s (zone.x + extent.insetLeft) (zone.y + extent.insetTop) lines
  pure
    { height := max32 extent.height (bottom - zone.y + extent.insetBottom) +
        if lines.isEmpty then 0 else textGap }

end Page

end BoxFlow
