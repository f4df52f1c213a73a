import BoxFlow.Selector.Parse
import BoxFlow.Stylesheet.Basic
import BoxFlow.Stylesheet.Shorthand
import BoxFlow.Stylesheet.Source

/-!
# Reading stylesheets

Every block whose selector group can be read adds its declarations under each of
its selectors. A group that cannot be read drops its whole block, inner blocks
included, and an unacceptable value drops its declaration. What is dropped is
listed by the companion functions named after warnings.
-/

namespace BoxFlow

/-- Reads every selector of a group; one that cannot be read fails the group. -/
def Selector.parseGroup (group : List Char) : Except SelectorError (List (String × Selector)) :=
  (Source.groupPieces group).mapM fun text =>
    (Selector.parse text).map fun selector => (String.ofList text, selector)

namespace Block

/-- The acceptable declarations of a rule body, with their longhands. -/
def ofBody (body : List Char) : Block :=
  (Source.declarations body).foldl
    (fun b (name, value) => if Value.isValid name value then b.declare name value else b) empty

/-- The warning about one declaration of a rule body. -/
def dropped? (name value : String) : Option Warning :=
  if Value.isValid name value then ignored? name value
  else some (.css ("invalid value '" ++ value ++ "' for '" ++ name ++ "' dropped"))

/-- What `ofBody` drops. -/
def bodyWarnings (body : List Char) : List Warning :=
  (Source.declarations body).filterMap fun (name, value) => dropped? name value

/-- The declarations of a style attribute, with their longhands. Values are taken
as they are. -/
def ofInline (text : String) : Block :=
  (Source.declarations (Source.withoutComments text.toList)).foldl
    (fun b (name, value) => b.declare name value) empty

/-- What `ofInline` ignores. -/
def inlineWarnings (text : String) : List Warning :=
  (Source.declarations (Source.withoutComments text.toList)).filterMap fun (name, value) =>
    ignored? name value

end Block

namespace Stylesheet

/-- Adds the rules of one block. -/
def addBlock (sheet : Stylesheet) (block : Source.RawBlock) : Stylesheet :=
  match Selector.parseGroup block.group with
  | .error _ => sheet
  | .ok selectors =>
    let declarations := Block.ofBody block.body
    selectors.foldl (fun sheet (text, selector) => sheet.declare text selector declarations) sheet

/-- The sheet that a source describes. -/
def parse (source : String) : Stylesheet :=
  (Source.outline source.toList).blocks.foldl addBlock empty

/-- What is dropped from one block. -/
def blockWarnings (block : Source.RawBlock) : List Warning :=
  match Selector.parseGroup block.group with
  | .error e =>
    [.css ("rule '" ++ String.ofList block.group ++ "' skipped: " ++ e.message)]
  | .ok _ => Block.bodyWarnings block.body

/-- What `parse` drops. -/
def parseWarnings (source : String) : List Warning :=
  let outline := Source.outline source.toList
  outline.blocks.flatMap blockWarnings ++
    if outline.isOpen then [.css "unterminated block at end of stylesheet ignored"] else []

/-- The sheet of several sources, each merged over those before it. -/
def parseAll (sources : List String) : Stylesheet :=
  sources.foldl (fun sheet source => sheet.merge (parse source)) empty

end Stylesheet

end BoxFlow
