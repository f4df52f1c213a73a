import BoxFlow.Layout.Draw
import BoxFlow.Layout.Zone
import BoxFlow.Style.Reading
import BoxFlow.Text.Quoted

/-!
# Borders and boxes

A box is its content with padding and border around it; margins lie outside and
are not its business. Drawing a box fills its background and then the four sides
of its border, and tells how large the box is and where its content starts.
-/

namespace BoxFlow

/-- One side of a border as it is laid out; it is painted only in a color. -/
structure BorderSide where
  width : Float32
  color : Option Color

namespace BorderSide

/-- A side that takes no space. -/
def none : BorderSide := ⟨0, Option.none⟩

/-- Width of a side that has a style but no width. -/
def mediumWidth : Float32 := 2

/-- The value for a part of one side: that of the side, else that shared by all
sides, both trimmed; a blank one counts as missing. -/
def partValue? (s : Style) (side : Side) (part : BorderPart) : Option String :=
  let read (name : String) : Option String :=
    ((s.get? name).map Text.trimmed).filter (· != "")
  (read (side.border part)).or (read ("border-" ++ part.name))

/-- The style of one side; one that has none is not there. -/
def lineStyle (s : Style) (side : Side) : String :=
  (partValue? s side .style).getD "none"

/-- Whether there is a border on that side. -/
def isPresent (s : Style) (side : Side) : Bool :=
  lineStyle s side != "none" && lineStyle s side != "hidden"

/-- The width of a side that is present; one that cannot be read is 0. -/
def widthOf (s : Style) (side : Side) : Float32 :=
  match partValue? s side .width with
  | .none => mediumWidth
  | some text => (Length.borderWidth? text).getD 0

/-- The color of a side that is present. Without a concrete color it is that of
the text. -/
def colorOf (s : Style) (side : Side) : Color :=
  match (partValue? s side .color).bind ColorText.read? with
  | some (.color c) => c.withOpacity s.opacity
  | _ => s.textColor

/-- One side of the border of a style. Every style of line takes up space, but
only a solid one is painted. -/
def ofStyle (s : Style) (side : Side) : BorderSide :=
  if isPresent s side then
    ⟨widthOf s side, if lineStyle s side = "solid" then some (colorOf s side) else Option.none⟩
  else none

/-- The warning about a width that cannot be read. -/
def warnings (s : Style) (side : Side) : List Warning :=
  if isPresent s side then
    match partValue? s side .width with
    | .none => []
    | some text =>
      if (Length.borderWidth? text).isSome then []
      else [.layout ("invalid border-" ++ side.name ++ "-width " ++ Text.quoted text ++
        "; using 0")]
  else []

end BorderSide

/-- The size of a drawn box, and how far its content lies inside it. -/
structure BoxExtent where
  width : Float32
  height : Float32
  insetLeft : Float32
  insetTop : Float32
  insetBottom : Float32

namespace BoxExtent

/-- An explicit length, else what is available, at most a given amount. -/
def contentSize (explicit : Option Float32) (available : Float32) (most : Option Float32) :
    Float32 :=
  match explicit, most with
  | some size, _ => size
  | none, some most => min32 available most
  | none, none => available

/-- The commands for the background and the border of a box at a point. -/
def paint (s : Style) (border : Sides BorderSide) (x y width height : Float32) : List Command :=
  let fillSide (side : BorderSide) (bounds : Rect) : List Command :=
    match side.color with
    | some color => Command.fill bounds color
    | none => []
  (match s.backgroundColor? with
    | some color => Command.fill (.ofLayout x y width height) color
    | none => []) ++
  fillSide border.top (.ofLayout x y width border.top.width) ++
  fillSide border.bottom
    (.ofLayout x (y + height - border.bottom.width) width border.bottom.width) ++
  fillSide border.left (.ofLayout x y border.left.width height) ++
  fillSide border.right
    (.ofLayout (x + width - border.right.width) y border.right.width height)

/-- Draws the box of a style at the origin of a zone. Where the style gives no
size, the content is as large as the zone, but no larger than the given bounds. -/
def draw (s : Style) (zone : Zone) (maxHeight maxWidth : Option Float32) : Draw BoxExtent :=
  let padding := s.padding
  let border := Sides.ofFn (BorderSide.ofStyle s)
  let contentWidth := contentSize (s.length? "width") zone.width maxWidth
  let contentHeight := contentSize (s.length? "height") zone.height maxHeight
  let width := border.left.width + padding.left + contentWidth + padding.right + border.right.width
  let height :=
    border.top.width + padding.top + contentHeight + padding.bottom + border.bottom.width
  { value :=
      { width, height
        insetLeft := border.left.width + padding.left
        insetTop := border.top.width + padding.top
        insetBottom := padding.bottom + border.bottom.width }
    commands := paint s border zone.x zone.y width height
    warnings := Side.all.flatMap (BorderSide.warnings s) }

end BoxExtent

end BoxFlow
