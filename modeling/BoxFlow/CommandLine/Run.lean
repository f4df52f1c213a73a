import BoxFlow.CommandLine.Options
import BoxFlow.Document.Load
import BoxFlow.Image.Png
import BoxFlow.Report.Dump

/-!
# Carrying out a command line

A run reads the sheets and the document, reports on it and paints it. It gives
the text to print and the picture to save; only whether the picture could be
saved is left open.
-/

namespace BoxFlow

/-- Why a run fails. -/
inductive RunError where
  | unreadableSheet (path : String)
  | load (cause : LoadError)
  | unusableFont (path : String)
  | overflow (operation : Overflow)
  | unsaved (path : String)
deriving DecidableEq, Repr

/-- The cause in words. -/
def RunError.message : RunError → String
  | unreadableSheet path => "failed to read stylesheet '" ++ path ++ "'"
  | load cause => cause.message
  | unusableFont path => "failed to load font '" ++ path ++ "'"
  | overflow operation => operation.message
  | unsaved path => "failed to save image to '" ++ path ++ "'"

/-- The status with which a run ends that fails. -/
def RunError.status : RunError → Nat
  | overflow _ => 101
  | _ => 1

/-- A picture with the path to save it at. -/
structure SavedPicture where
  path : String
  canvas : Canvas

/-- What a run prints and reports, and the picture that is still to be saved. -/
structure RunResult where
  report : String
  log : List String
  picture : Option SavedPicture

namespace SavedPicture

/-- Extensions of the image format in which pictures are saved. -/
def extensions : List String := ["png", "apng"]

/-- Whether the picture has pixels and its path the extension of the format. -/
def isWritable (p : SavedPicture) : Bool :=
  p.canvas.width != 0 && p.canvas.height != 0 &&
    ((Path.extension? p.path).map fun e => extensions.contains (Text.lowercase e)).getD false

/-- The bytes of the file. -/
def bytes (p : SavedPicture) : Bytes :=
  Png.encode p.canvas.width p.canvas.height p.canvas.bytes

/-- The line that tells what was saved. -/
def line (p : SavedPicture) : String :=
  Terminal.bold (Terminal.green "Wrote") ++ " " ++ p.path ++ " (" ++
    toString p.canvas.width ++ "x" ++ toString p.canvas.height ++ ")\n"

end SavedPicture

namespace Options

/-- The files that are read whatever the document says. -/
def files (o : Options) : List String := o.sheets ++ [o.input]

/-- The files of the images of the document, if there is a document. -/
def imageFiles (o : Options) (read? : FileReader) : List String :=
  match Document.load read? o.input {} with
  | .error _ => []
  | .ok doc =>
    let store : ImageStore := { folder? := doc.folder? }
    (List.range doc.tree.size).filterMap fun id => do
      let e ← doc.tree.element? id
      let source ← e.attribute? "src"
      if e.tag = "img" then some (store.pathOf (Text.trimmed source)) else none

/-- The texts of the extra sheets. -/
def sheetTexts (o : Options) (read? : FileReader) : Except RunError (List String) :=
  o.sheets.mapM fun path =>
    match read?.text? path with
    | some text => .ok text
    | none => .error (.unreadableSheet path)

/-- The report that is asked for: the styles, or the dump, which also stands in
where nothing else is asked for. -/
def reportOn (o : Options) (doc : Document) (commands : List Command) : String :=
  if o.json then doc.styleListing
  else if o.dump || o.output.isNone then doc.dump commands
  else ""

/-- Carries out a command line. No font file can be read, and text is not drawn. -/
def run (o : Options) (read? : FileReader) : Except RunError RunResult := do
  let extraSheets ← o.sheetTexts read?
  let settings : Settings := { visited := o.visited, extraSheets, useDefaults := o.useDefaults }
  match Document.load read? o.input settings with
  | .error cause => .error (.load cause)
  | .ok doc =>
    doc.overflow.forM fun operation => throw (.overflow operation)
    match o.font with
    | some path => .error (.unusableFont path)
    | none =>
      let drawn := doc.layout o.canvas (doc.imageLoader read?)
      let noFont : Warning :=
        .render "no system font found; text is measured approximately and not drawn"
      drawn.overflow.forM fun operation => throw (.overflow operation)
      .ok
        { report := o.reportOn doc drawn.commands
          log := WarningLog.shownFor (doc.warnings ++ noFont :: drawn.warnings)
          picture := o.output.map fun path =>
            ⟨path, .picture o.canvas.width o.canvas.height drawn.commands⟩ }

end Options

/-- All that a run prints, given whether its picture was saved. -/
def RunResult.finish (r : RunResult) (saved : SavedPicture → Bool) : Except RunError String :=
  match r.picture with
  | none => .ok r.report
  | some p => if saved p then .ok (r.report ++ p.line) else .error (.unsaved p.path)

end BoxFlow
