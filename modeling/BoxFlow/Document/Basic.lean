import BoxFlow.Files.Path
import BoxFlow.Image.Source
import BoxFlow.Layout.Document
import BoxFlow.Paint.Raster
import BoxFlow.Stylesheet.Default

/-!
# Documents

A document is a tree with its stylesheet and the styles that follow from it. The
sheet starts with the default rules, then come the rules that the page holds in
its head, then any further sheets; each is merged over those before it.
-/

namespace BoxFlow

/-- What a document depends on besides its tree. -/
structure Settings where
  visited : List String := []
  extraSheets : List String := []
  useDefaults : Bool := true
deriving DecidableEq, Repr

/-- A tree with everything needed to lay it out, and the path it was read from,
which is empty if there is none. If styling has failed, the styles are of no use. -/
structure Document where
  path : String := ""
  tree : Tree
  pageRules : String
  sheet : Stylesheet
  styles : StyleMap
  warnings : List Warning
  overflow : Option Overflow := none

/-- The text of all style elements right inside the head, joined line by line. -/
def Tree.pageRules (t : Tree) : String :=
  match t.head? with
  | none => ""
  | some head =>
    Text.joinWith "\n" (((t.elementChildren head).filter fun id => t.isTag id "style").map
      t.textContent)

namespace Document

/-- The sheet for the rules of a page. -/
def sheetFor (settings : Settings) (pageRules : String) : Stylesheet :=
  (pageRules :: settings.extraSheets).foldl (fun sheet text => sheet.merge (.parse text))
    (if settings.useDefaults then .default else .empty)

/-- Styles a tree. -/
def ofTree (tree : Tree) (settings : Settings) : Document :=
  let sheet := sheetFor settings tree.pageRules
  let input : StyleInput := ⟨tree, sheet, ⟨settings.visited⟩⟩
  { tree
    pageRules := tree.pageRules
    sheet
    styles := input.styles
    warnings :=
      (tree.pageRules :: settings.extraSheets).flatMap Stylesheet.parseWarnings ++ input.warnings
    overflow := input.overflow? }

/-- The folder that relative sources start from. -/
def folder? (doc : Document) : Option String :=
  (Path.folder? doc.path).filter (· != "")

/-- The document with a loader for its images. -/
def page (doc : Document) (images : ImageLoader) : Page :=
  { tree := doc.tree, styles := doc.styles, images }

/-- Lays the document out on a canvas. -/
def layout (doc : Document) (size : CanvasSize) (images : ImageLoader) : Draw Unit :=
  (doc.page images).document size

/-- The picture of what is laid out on a canvas, if neither styling nor the layout
fails. -/
def render? (doc : Document) (size : CanvasSize) (images : ImageLoader) : Option Canvas :=
  let drawn := doc.layout size images
  if (doc.overflow.or drawn.overflow).isSome then none
  else some (.picture size.width size.height drawn.commands)

end Document

end BoxFlow
