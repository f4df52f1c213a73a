import BoxFlow.Style.ColorText
import BoxFlow.Style.Font
import BoxFlow.Style.Length
import BoxFlow.Style.Properties
import BoxFlow.Style.Side

/-!
# Reading values of a style

Values stay text until something needs them. A length, color, font or keyword
that is missing or cannot be read stands for a default.
-/

namespace BoxFlow.Style

/-- A length in pixels, if the property holds one. -/
def length? (s : Style) (name : String) : Option Float32 :=
  (s.get? name).bind Length.read?

/-- A length in pixels, 0 where the property holds none. -/
def lengthOrZero (s : Style) (name : String) : Float32 :=
  (s.length? name).getD 0

/-- The font size in pixels, which is positive. -/
def fontSize (s : Style) : Float32 :=
  ((s.length? "font-size").filter fun size => 0 < size).getD Length.defaultFontSize

/-- The opacity, moved into `0..1`. -/
def opacity (s : Style) : Float32 :=
  match (s.get? "opacity").bind fun text => readFloat32? (Text.trim text.toList) with
  | some amount => clamp32 0 1 amount
  | none => 1

/-- The color of text with the opacity applied; black where no concrete color is
given. -/
def textColor (s : Style) : Color :=
  let base := match ColorText.read? (s.value "color") with
    | some (.color c) => c
    | _ => Color.black
  base.withOpacity s.opacity

/-- The color behind the content, if there is one: that of the shorthand, else of
the longhand, with the opacity applied. A keyword stands for the color of text. -/
def backgroundColor? (s : Style) : Option Color :=
  let shorthand := (s.get? "background").filter fun text => !Text.isAllBlank text.toList
  match (shorthand.or (s.get? "background-color")).bind ColorText.read? with
  | some (.color c) => some (c.withOpacity s.opacity)
  | some .inherit => some s.textColor
  | none => none

/-- The weight of the font; a slant of bold counts as one. -/
def fontWeight (s : Style) : FontWeight :=
  if Text.trimmed (s.value "font-style") = "bold" then .bold
  else FontWeight.read (s.value "font-weight")

/-- The slant of the font. -/
def fontStyle (s : Style) : FontStyle :=
  FontStyle.read (s.value "font-style")

/-- Whether the element and everything below it is left out of the layout. -/
def isHidden (s : Style) : Bool :=
  Text.trimmed (s.value "display") == "none"

/-- The padding of each side. -/
def padding (s : Style) : Sides Float32 :=
  .ofFn fun side => s.lengthOrZero side.padding

/-- The margin of each side. -/
def margin (s : Style) : Sides Float32 :=
  .ofFn fun side => s.lengthOrZero side.margin

end BoxFlow.Style
