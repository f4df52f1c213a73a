import BoxFlow.Document.Basic
import BoxFlow.Json.Writer
import BoxFlow.Number.Decimal
import BoxFlow.Report.Terminal

/-!
# Reports on a document

A dump shows every stage between a tree and its drawing: the tree, the rules,
the styles and the commands. A listing gives the styles of the elements alone,
as an object by position and tag.
-/

namespace BoxFlow

/-- Text with a line of each entry. -/
def linesText (lines : List String) : String :=
  .ofList (lines.flatMap fun line => line.toList ++ ['\n'])

/-- A text node in one line: line feeds and spaces become visible. -/
def visibleText (content : String) : String :=
  .ofList (content.toList.flatMap fun c =>
    if c = '\n' then ['\\', 'n'] else if c = ' ' then ['·'] else [c])

namespace Tree

/-- A node in one line. -/
def kindLine : NodeKind → String
  | .document => "Document"
  | .element e =>
    "<" ++ Terminal.blue e.tag ++
      .ofList (e.attributes.flatMap fun a =>
        ' ' :: a.name.toList ++ '=' :: '"' :: a.value.toList ++ ['"']) ++ ">"
  | .text content => "\"" ++ Terminal.dimmed (visibleText content) ++ "\""
  | .comment content => "<!-- " ++ content ++ " -->"

/-- The lines of a node and of up to `levels - 1` levels below it, each level
indented. -/
def outline (t : Tree) (line? : NodeId → Option String) : Nat → Nat → NodeId → List String
  | 0, _, _ => []
  | levels + 1, depth, id =>
    ((line? id).map fun line => Json.indentation depth ++ line).toList ++
      (t.children id).flatMap (t.outline line? levels (depth + 1))

/-- A line for each node of the document for which there is one. -/
def outlined (t : Tree) (line? : NodeId → Option String) : List String :=
  t.outline line? t.size 0 root

end Tree

/-- An element with its style in one line. -/
def Style.line (s : Style) (tag : String) : String :=
  let declarations := s.properties.map fun (name, value) => name ++ ": " ++ value
  Terminal.blue tag ++ " \x7b " ++ Text.joinWith "; " declarations ++ " \x7d"

/-- A rule in one line. -/
def Rule.line (r : Rule) : String :=
  "  " ++ Terminal.cyan r.text ++ " \x7b " ++ toString r.declarations.size ++ " declarations \x7d"

/-- A rectangle by its position and its size. -/
def Rect.text (r : Rect) : String :=
  "(" ++ toString r.x ++ ", " ++ toString r.y ++ ") " ++
    toString r.width ++ "x" ++ toString r.height

namespace Command

/-- The name of a kind of command. -/
def name : Command → String
  | fillRect .. => "FillRect"
  | fillCircle .. => "FillCircle"
  | drawText .. => "DrawText"
  | drawImage .. => "DrawImage"

/-- What a command draws, besides where. -/
def details : Command → String
  | fillRect _ color => .ofList color.toHex
  | fillCircle _ _ _ color => .ofList color.toHex
  | drawText _ run =>
    Text.quoted run.text ++ " " ++ shortest run.fontSize ++ "px " ++ .ofList run.color.toHex
  | drawImage _ image => toString image.width ++ "x" ++ toString image.height ++ " source"

/-- A command in one line. -/
def line (c : Command) : String :=
  "  " ++ Terminal.yellow c.name ++ " " ++ c.bounds.text ++ " " ++ c.details

end Command

namespace Document

/-- The line of an element in the list of styles. -/
def styleLine? (doc : Document) (id : NodeId) : Option String := do
  let tag ← doc.tree.tag? id
  let style ← doc.styles.get? id
  some (style.line tag)

/-- All stages of a document with the commands of its drawing. -/
def dump (doc : Document) (commands : List Command) : String :=
  linesText <|
    [Terminal.bold "=== DOM Tree ==="] ++
    doc.tree.outlined (fun id => (doc.tree.get? id).map fun node => Tree.kindLine node.kind) ++
    ["", Terminal.bold "=== Stylesheet ===", toString doc.sheet.size ++ " rules"] ++
    doc.sheet.rules.map Rule.line ++
    ["", Terminal.bold "=== Computed Styles ===", toString doc.styles.size ++ " styled nodes"] ++
    doc.tree.outlined doc.styleLine? ++
    ["", Terminal.bold "=== Display List ===", toString commands.length ++ " commands"] ++
    commands.map Command.line

/-- The styled elements by position and tag, in the order of these texts. -/
def styleEntries (doc : Document) : List (String × Style) :=
  let entries := (List.range doc.tree.size).filterMap fun id => do
    let tag ← doc.tree.tag? id
    let style ← doc.styles.get? id
    some (String.ofList (Text.paddedDigits 5 id) ++ ":" ++ tag, style)
  entries.mergeSort fun x y => decide (x.1 ≤ y.1)

/-- The styles of the elements as a JSON object. -/
def styleListing (doc : Document) : String :=
  linesText
    [Json.writtenObject 0 (doc.styleEntries.map fun (key, style) =>
      (key, Json.writtenObject 1 (style.properties.map fun (name, value) =>
        (name, Json.writtenString value))))]

end Document

end BoxFlow
