import BoxFlow.Text.Cut

/-!
# Elements

An element is a tag and its attributes. Tags and attribute names are kept in
lower case; attributes keep their order and may repeat, and a look-up sees the
first one of its name.
-/

namespace BoxFlow

/-- One attribute; the name is in lower case. -/
structure Attribute where
  name : String
  value : String
deriving DecidableEq, Repr

/-- A tag in lower case with its attributes in order. -/
structure Element where
  tag : String
  attributes : List Attribute := []
deriving DecidableEq, Repr

namespace Element

/-- The element for a tag and attribute pairs as written. -/
def ofWritten (tag : String) (attributes : List (String × String)) : Element where
  tag := Text.lowercase tag
  attributes := attributes.map fun (name, value) => ⟨Text.lowercase name, value⟩

/-- Value of the first attribute of that name, ASCII case ignored. -/
def attribute? (e : Element) (name : String) : Option String :=
  (e.attributes.find? fun a => Text.sameIgnoringCase a.name name).map Attribute.value

/-- Whether there is an attribute of that name. -/
def hasAttribute (e : Element) (name : String) : Bool :=
  (e.attribute? name).isSome

/-- Value of the attribute, or the empty string. -/
def attributeText (e : Element) (name : String) : String :=
  (e.attribute? name).getD ""

/-- The id, empty when there is none. -/
def id (e : Element) : String :=
  e.attributeText "id"

/-- The class names, in order. -/
def classes (e : Element) : List String :=
  (Text.words Text.isAsciiBlank (e.attributeText "class").toList).map String.ofList

/-- Whether `name` is one of the class names. -/
def hasClass (e : Element) (name : String) : Bool :=
  e.classes.contains name

end Element

end BoxFlow
