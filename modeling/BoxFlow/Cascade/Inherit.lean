import BoxFlow.Style.Properties
import BoxFlow.Text.Blank

/-!
# Inheritance

Some properties take the value of the parent where the element's own value is
missing, blank or a keyword that asks for it.
-/

namespace BoxFlow

/-- The properties that are inherited. -/
def inheritedProperties : List String :=
  ["color", "opacity", "background", "background-color", "font-style", "display", "font-size",
   "font-weight"]

/-- Whether a value, without the blanks around it, asks for that of the parent. -/
def isInheritanceKeyword (property value : String) : Bool :=
  let keyword := Text.trimmed value
  keyword == "inherit" ||
    (property == "color" && (keyword == "currentColor" || keyword == "currentcolor"))

/-- Whether a value makes way for that of the parent. -/
def takesParentValue (property value : String) : Bool :=
  Text.isAllBlank value.toList || isInheritanceKeyword property value

namespace Style

/-- Takes a property over from the parent, if the parent has it. -/
def takeOver (s : Style) (parent : Style) (property : String) : Style :=
  match parent.get? property with
  | some value => s.set property value
  | none => s

/-- Takes the properties over for which a condition holds. -/
def takeOverWhere (s : Style) (parent : Style) (condition : Style → String → Bool) : Style :=
  inheritedProperties.foldl
    (fun s property => if condition s property then s.takeOver parent property else s) s

/-- Takes every inherited property over whose own value makes way. -/
def inherit (s : Style) (parent : Style) : Style :=
  s.takeOverWhere parent fun s property => takesParentValue property (s.value property)

/-- Takes every inherited property over to which a style attribute gives a
keyword. A value of blanks counts as one, an empty value does not. -/
def resolveInline (s : Style) (inline : Block) (parent : Style) : Style :=
  s.takeOverWhere parent fun _ property =>
    (inline.get? property).any fun own => own != "" && takesParentValue property own

/-- The style of a node that declares nothing: the inherited properties. -/
def inheritedOnly (parent : Style) : Style :=
  empty.inherit parent

end Style

end BoxFlow
