import BoxFlow.Image.Pixmap
import BoxFlow.Image.Source

/-!
# Stores of images

A store reads each image file at most once. What it has read it keeps by the way
that leads to the file, whatever happens to the file afterwards; what could not
be read or decoded it tries again the next time.
-/

namespace BoxFlow

/-- An image in a store, with its place in the order of loading. -/
structure StoredImage where
  number : Nat
  image : Image

/-- The images loaded so far, in order, for sources relative to a folder. -/
structure ImageStore where
  folder? : Option String := none
  images : List (Way × Image) := []

namespace ImageStore

/-- The image at a way, with its number, among images numbered from `n`. -/
def findFrom (way : Way) : Nat → List (Way × Image) → Option StoredImage
  | _, [] => none
  | n, (key, image) :: rest => if key = way then some ⟨n, image⟩ else findFrom way (n + 1) rest

/-- The stored image at a way. -/
def find? (store : ImageStore) (way : Way) : Option StoredImage :=
  findFrom way 0 store.images

/-- The path of the file that a source names. -/
def pathOf (store : ImageStore) (source : String) : String :=
  match store.folder? with
  | none => ImageSource.withoutDecorations source
  | some folder => Path.join folder (ImageSource.withoutDecorations source)

/-- Reads and decodes the file at a path. -/
def fetch (read? : FileReader) (decode? : Bytes → Option Image) (path : String) :
    Except ImageError Image :=
  match read? path with
  | none => .error (.unreadable path)
  | some bytes =>
    match decode? bytes with
    | none => .error (.undecodable path)
    | some image => .ok image

/-- Loads the image of a source. -/
def load (store : ImageStore) (read? : FileReader) (decode? : Bytes → Option Image)
    (source : String) : Except ImageError StoredImage × ImageStore :=
  let source := Text.trimmed source
  if ImageSource.isRemote source then (.error (.unsupported source), store)
  else
    let path := store.pathOf source
    match store.find? (Path.way path) with
    | some stored => (.ok stored, store)
    | none =>
      match fetch read? decode? path with
      | .error e => (.error e, store)
      | .ok image =>
        (.ok ⟨store.images.length, image⟩,
          { store with images := store.images ++ [(Path.way path, image)] })

/-- What loading a source reports: that it has a query or a fragment. -/
def warnings (source : String) : List Warning :=
  let source := Text.trimmed source
  if ImageSource.isRemote source ∨ ImageSource.withoutDecorations source = source then []
  else [.image ("ignoring query string or fragment in " ++ Text.quoted source)]

/-- The loader of a store while files stay as they are: it makes no difference
then what is already stored. -/
def loader (store : ImageStore) (read? : FileReader) : ImageLoader := fun source =>
  ⟨(store.load read? Pixmap.decode? source).1.map StoredImage.image, warnings source⟩

end ImageStore

end BoxFlow
