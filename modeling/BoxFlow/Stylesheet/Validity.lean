import BoxFlow.Style.ColorText
import BoxFlow.Style.Length
import BoxFlow.Style.Side
import BoxFlow.Stylesheet.ValueTokens

/-!
# Acceptable values

Color and border properties have to hold a value that can be read later. Every
other property takes any value.
-/

namespace BoxFlow.Value

/-- Whether the value of a color property can be read. -/
def isColor (value : String) : Bool := (ColorText.read? value).isSome

/-- Whether a border width can be read. -/
def isBorderWidth (value : String) : Bool := (Length.borderWidth? value).isSome

/-- Whether there is a token and all of them are acceptable. -/
def allTokens (accepts : String → Bool) (value : String) : Bool :=
  let parts := tokens value
  !parts.isEmpty && parts.all accepts

/-- Whether the property is that part of the border on some side. -/
def isSideBorder (part : BorderPart) (name : String) : Bool :=
  Side.all.any fun side => name == side.border part

/-- Whether the value is acceptable for the property. -/
def isValid (name value : String) : Bool :=
  if name = "border-color" then allTokens isColor value
  else if name = "border-width" then allTokens isBorderWidth value
  else if name = "border-style" then allTokens Length.isBorderStyle value
  else if name = "color" ∨ name = "background" ∨ "-color".toList.isSuffixOf name.toList then
    isColor value
  else if isSideBorder .width name then isBorderWidth value
  else if isSideBorder .style name then Length.isBorderStyle value
  else true

end BoxFlow.Value
