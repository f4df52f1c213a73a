import BoxFlow.Layout.Page

/-!
# Tables

Rows start at the left edge of the table, cells stand next to each other with
widths of their own, and a row is as high as its highest cell. A cell shows all
text below it as one run.
-/

namespace BoxFlow

/-- Smallest width of the content of a cell without a width of its own. -/
def minCellWidth : Float32 := 10

namespace Page

/-- Whether a node between the parts of a table counts for nothing. -/
def isIgnorable (page : Page) (id : NodeId) : Bool :=
  match (page.tree.get? id).map Node.kind with
  | some (.text content) => Text.isAllBlank content.toList
  | some (.element _) | some .document => false
  | _ => true

/-- The body of a table: its first child that counts, if that is one. -/
def tableBody? (page : Page) (id : NodeId) : Option NodeId :=
  ((page.tree.children id).find? fun child => !page.isIgnorable child).filter fun child =>
    page.tree.isTag child "tbody"

/-- The rows of a table body that are shown. -/
def rows (page : Page) (body : NodeId) : List NodeId :=
  (page.tree.elementChildren body).filter fun row =>
    page.tree.isTag row "tr" && !page.isHidden row

/-- The cells of a row that are shown. -/
def cells (page : Page) (row : NodeId) : List NodeId :=
  (page.tree.elementChildren row).filter fun cell =>
    (page.tree.isTag cell "th" || page.tree.isTag cell "td") && !page.isHidden cell

/-- Draws a cell at the origin of a zone. -/
def drawCell (page : Page) (cell : NodeId) (zone : Zone) : Draw BoxExtent := do
  let s := page.style cell
  let text := Text.visible (page.tree.textContent cell).toList
  let width := (s.length? "width").getD (max32 (page.textWidth s text) minCellWidth)
  let extent ← BoxExtent.draw s zone (some (page.lineHeight s + textGap)) (some width)
  let _ ← page.drawText s text (zone.x + extent.insetLeft) (zone.y + extent.insetTop)
  pure extent

/-- Draws cells next to each other from `x` on and gives the greatest of their
heights and `tallest`. -/
def drawCells (page : Page) (zone : Zone) : Float32 → Float32 → List NodeId → Draw Float32
  | _, tallest, [] => pure tallest
  | x, tallest, cell :: cells => do
    let extent ← page.drawCell cell { zone with x }
    page.drawCells zone (x + extent.width) (max32 tallest extent.height) cells

/-- Draws rows below each other from `y` on and gives the position after the last
one. -/
def drawRows (page : Page) (zone : Zone) : Float32 → List NodeId → Draw Float32
  | y, [] => pure y
  | y, row :: rows => do
    let height ← page.drawCells { zone with y } zone.x 0 (page.cells row)
    page.drawRows zone (y + height) rows

/-- A table. One that does not start with its body is reported and skipped. -/
def table (page : Page) (id : NodeId) (zone : Zone) : Draw Content :=
  match page.tableBody? id with
  | none => do
    .warn [.layout "table without a leading tbody is not laid out"]
    pure {}
  | some body => do
    let bottom ← page.drawRows zone zone.y (page.rows body)
    pure { height := bottom - zone.y }

end Page

end BoxFlow
