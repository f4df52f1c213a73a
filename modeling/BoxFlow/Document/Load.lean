import BoxFlow.Document.Basic
import BoxFlow.Dom.Description
import BoxFlow.Image.Store

/-!
# Loading documents

A document is loaded from a file that describes its tree. It can only fail if
there is no text at the path or the text describes no tree; whatever else is
wrong with a document is a warning.
-/

namespace BoxFlow

/-- Why there is no document. -/
inductive LoadError where
  | unreadable (path : String)
  | notATree (path : String)
deriving DecidableEq, Repr

/-- The cause in words. -/
def LoadError.message : LoadError → String
  | unreadable path => "failed to read '" ++ path ++ "'"
  | notATree path => "'" ++ path ++ "' is not a valid element tree"

namespace Document

/-- The document in the file at a path. -/
def load (read? : FileReader) (path : String) (settings : Settings) :
    Except LoadError Document :=
  match read?.text? path with
  | none => .error (.unreadable path)
  | some text =>
    match Spec.read? text with
    | none => .error (.notATree path)
    | some spec => .ok { ofTree spec.toTree settings with path }

/-- The loader for images next to the document. -/
def imageLoader (doc : Document) (read? : FileReader) : ImageLoader :=
  ImageStore.loader { folder? := doc.folder? } read?

end Document

end BoxFlow
