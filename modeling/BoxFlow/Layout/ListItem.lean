import BoxFlow.Layout.Page

/-!
# Lists and their items

A list moves its items right by its own padding. Each item starts with a marker:
a disc in an unordered list, its number in an ordered one. Items are numbered in
64 bits, and a layout that comes to an item beyond these numbers fails.
-/

namespace BoxFlow

/-- What stands in front of a list item. -/
inductive Marker where
  | disc
  | decimal (n : Int)
deriving DecidableEq, Repr

/-- Whether a marker has no number, or one of 64 bits. -/
def Marker.fits : Marker → Bool
  | .disc => true
  | .decimal n => Text.isInt64 n

/-- Space above the first item of a list. -/
def listTopGap : Float32 := 16

/-- The marker of a list item by its parent. The numbers of an ordered list start
where its start attribute says and count the items only. -/
def Tree.marker? (t : Tree) (item : NodeId) : Option Marker :=
  match t.parent? item with
  | none => none
  | some list =>
    match t.element? list with
    | none => none
    | some e =>
      if e.tag = "ul" then some .disc
      else if e.tag = "ol" then
        let start := ((e.attribute? "start").bind fun text =>
          Text.readInt64? (Text.trim text.toList)).getD 1
        let items := (t.elementChildren list).filter fun child => t.isTag child "li"
        some (.decimal (start + ((items.idxOf? item).getD 0 : Nat)))
      else none

namespace Page

/-- A list: nothing but the space above its items. -/
def list (s : Style) : Content where
  height := listTopGap
  children := some { dx := s.lengthOrZero "padding-left", dy := listTopGap }

/-- Draws the marker of an item at the origin of its zone. -/
def drawMarker (page : Page) (s : Style) (zone : Zone) (marker : Option Marker) : Draw Unit :=
  if Text.trimmed (s.value "list-style-type") = "none" then pure ()
  else match marker with
    | none => pure ()
    | some .disc =>
      let radius := s.fontSize / 4
      .draw [.fillCircle (coordinateOf (zone.x + radius))
        (coordinateOf (zone.y + s.fontSize / 3 + radius)) (extentOf radius) s.textColor]
    | some (.decimal n) => do
      let _ ← page.drawText s ((toString n).toList ++ ['.']) zone.x zone.y

/-- A list item: its marker, then its text and its children to the right of it.
An item that does not start with text takes that of its first element, and then
its children are not laid out again. -/
def listItem (page : Page) (id : NodeId) (s : Style) (zone : Zone) : Draw Content := do
  let gap := s.fontSize + s.lengthOrZero "padding-left"
  .require ((page.tree.marker? id).all Marker.fits) .addition
  page.drawMarker s zone (page.tree.marker? id)
  let own := page.leadingText? id
  let borrowed := (page.tree.elementChildren id).head?.bind page.leadingText?
  match own.or borrowed with
  | none => pure { children := some { dx := gap, dy := 0 } }
  | some text =>
    let drawn ← page.drawText s text (zone.x + gap) zone.y
    let height := drawn.height + textGap
    pure
      { width := gap + drawn.width
        height
        children :=
          if own.isSome then some { dx := gap, dy := height, skipFirstText := true } else none }

end Page

end BoxFlow
