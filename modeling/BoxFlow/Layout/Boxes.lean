import BoxFlow.Layout.Page

/-!
# Boxes of elements

Most elements are a box with the text they start with. Within a line the box is
as wide as that text and the children follow on the same line; on a line of its
own it takes the width of the zone and the children come below.
-/

namespace BoxFlow.Page

/-- The box of an element within a line. Its text ends with a space if something
follows it. -/
def inlineBox (page : Page) (id : NodeId) (s : Style) (zone : Zone) : Draw Content := do
  let followed := 1 < (page.tree.children id).length || (page.tree.next? id).isSome
  let text := (page.leadingText? id).map fun text => if followed then text ++ [' '] else text
  let textWidth := (text.map (page.textWidth s)).getD 0
  let maxWidth := if (s.get? "width").isNone then some textWidth else none
  let extent ← BoxExtent.draw s zone (some (page.lineHeight s)) maxWidth
  let _ ← page.drawText s (text.getD []) (zone.x + extent.insetLeft) (zone.y + extent.insetTop)
  pure
    { width := extent.width
      height := extent.height
      children := some { dx := extent.width, dy := 0, skipFirstText := text.isSome } }

/-- The box of an element on a line of its own. It is one line high, or as high
as the style says. -/
def blockBox (page : Page) (id : NodeId) (s : Style) (zone : Zone) : Draw Content := do
  let extent ← BoxExtent.draw s zone (some (s.fontSize + s.fontSize / 5)) none
  let hasHeight := (s.get? "height").isSome
  let text := page.leadingText? id
  let drawn ← page.drawText s (text.getD []) (zone.x + extent.insetLeft) (zone.y + extent.insetTop)
  let textHeight := if text.isSome then drawn.height + textGap else 0
  let dy := extent.insetTop + textHeight
  pure
    { width := extent.width
      height := max32 (if hasHeight then extent.height else dy) dy
      trailing := if hasHeight then 0 else extent.insetBottom
      children := some { dx := extent.insetLeft, dy, skipFirstText := text.isSome } }

end BoxFlow.Page
