import BoxFlow.Layout.Flow

/-!
# Documents on a canvas

A document is laid out from the body element, which paints the whole canvas in
its background and insets its children by its margins. Without a body everything
below the document node is laid out on a white canvas.

A pass lays out several nodes one after the other. It only ever adds to what is
already drawn.
-/

namespace BoxFlow

/-- Width and height of a canvas in pixels. -/
structure CanvasSize where
  width : Nat := 500
  height : Nat := 300
deriving DecidableEq, Repr

namespace CanvasSize

/-- The canvas as a zone. -/
def zone (size : CanvasSize) : Zone :=
  .ofSize 0 0 (.ofNat size.width) (.ofNat size.height)

/-- The canvas as a rectangle. -/
def rect (size : CanvasSize) : Rect := ⟨0, 0, size.width, size.height⟩

end CanvasSize

/-- A zone without some space along its edges. -/
def Zone.inset (z : Zone) (edges : Sides Float32) : Zone :=
  ⟨z.x + edges.left, z.y + edges.top, z.maxX - edges.right, z.maxY - edges.bottom⟩

namespace Page

/-- The style of the body element, if there is one. -/
def bodyStyle (page : Page) : Style :=
  (page.tree.body?.map page.style).getD .empty

/-- The color of the canvas. -/
def canvasColor (page : Page) : Color :=
  page.bodyStyle.backgroundColor?.getD .white

/-- Lays out what is shown of the document. -/
def documentContent (page : Page) (size : CanvasSize) : Draw Consumed :=
  match page.tree.body? with
  | some body =>
    page.flowChildren (page.place (maxDepth - page.tree.depth body)) body
      (size.zone.inset page.bodyStyle.margin) false
  | none => page.flowChildren (page.place maxDepth) Tree.root size.zone false

/-- Lays out the document on a canvas. -/
def document (page : Page) (size : CanvasSize) : Draw Unit := do
  .draw (Command.fill size.rect page.canvasColor)
  let _ ← page.documentContent size
  pure ()

end Page

/-- What has been drawn of a page, node after node, and the operation that has made
the layout of one of them fail. -/
structure LayoutPass where
  page : Page
  commands : List Command := []
  warnings : List Warning := []
  overflow : Option Overflow := none

namespace LayoutPass

/-- Lays out one more node. -/
def layout (pass : LayoutPass) (id : NodeId) (zone : Zone) : Consumed × LayoutPass :=
  let drawn := pass.page.layout id zone
  (drawn.value,
    { pass with
      commands := pass.commands ++ drawn.commands, warnings := pass.warnings ++ drawn.warnings
      overflow := pass.overflow.or drawn.overflow })

end LayoutPass

end BoxFlow
