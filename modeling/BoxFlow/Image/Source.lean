import BoxFlow.Image.Basic
import BoxFlow.Text.Quoted
import BoxFlow.Text.Cut
import BoxFlow.Warning

/-!
# Sources of images

An image is named by a source. Only sources that name a local file are loaded;
what stands between a source and its pixels is a loader, which either has the
image or says why not.
-/

namespace BoxFlow

/-- Why there is no image. -/
inductive ImageError where
  | unsupported (source : String)
  | unreadable (path : String)
  | undecodable (path : String)
deriving DecidableEq, Repr

/-- The cause in words. -/
def ImageError.message : ImageError → String
  | unsupported source =>
    "unsupported image source " ++ Text.quoted source ++ ": only local paths are loaded"
  | unreadable path => "cannot read image " ++ path
  | undecodable path => "cannot decode image " ++ path

/-- What loading a source gives, and what there is to report about it. -/
structure LoadOutcome where
  result : Except ImageError Image
  warnings : List Warning := []

/-- Finds the image of a source. -/
abbrev ImageLoader := String → LoadOutcome

/-- The loader that has no image. -/
def ImageLoader.none : ImageLoader := fun source => ⟨.error (.unsupported source), []⟩

namespace ImageSource

/-- How sources begin that do not name a local file. -/
def remoteBeginnings : List String := ["http://", "https://", "data:", "//"]

/-- Whether the source points anywhere but to a local file. -/
def isRemote (source : String) : Bool :=
  let cs := (Text.trim source.toList).map Char.toLower
  remoteBeginnings.any fun beginning => beginning.toList.isPrefixOf cs

/-- A source without its fragment and its query. -/
def withoutDecorations (source : String) : String :=
  .ofList (Text.upTo '?' (Text.upTo '#' source.toList))

end ImageSource

end BoxFlow
