import BoxFlow.Paint.Canvas
import BoxFlow.Paint.Command

/-!
# Painting commands

A command is painted by two loops, over rows and within each row over columns. A
rectangle goes through the columns and rows between its edges, and a circle through
the distances from its center up to the radius, both only as far as the canvas
goes. An image goes through its whole destination, looks up the sample of the image
for each place, and what falls off the canvas is not painted.
-/

namespace BoxFlow

/-- Runs a step for the numbers from `low` up to `high`, which is left out. -/
def loop {σ : Type} (low high : Int) (step : σ → Int → σ) (state : σ) : σ :=
  Nat.fold (high - low).toNat (fun k _ state => step state (low + k)) state

/-- Whether a pixel at some distance from the center belongs to a circle: its own
center lies within the radius. -/
def insideCircle (radius : Nat) (dx dy : Int) : Bool :=
  let x := Float.ofInt dx + 0.5
  let y := Float.ofInt dy + 0.5
  let r := Float.ofNat radius
  decide (fusedMulAdd64 x x (y * y) ≤ r * r)

/-- The sample of a source for an offset on a destination of another extent. -/
def sampleAt (offset extent sourceExtent : Nat) : Nat :=
  min (offset * sourceExtent / extent) (sourceExtent - 1)

namespace Canvas

/-- Fills a rectangle. -/
def fillRect (canvas : Canvas) (bounds : Rect) (color : Color) : Canvas :=
  let left := max bounds.x 0
  let top := max bounds.y 0
  let right := min bounds.right (wrappedCoordinate canvas.width)
  let bottom := min bounds.bottom (wrappedCoordinate canvas.height)
  loop top bottom (fun canvas y =>
    loop left right (fun canvas x => canvas.blend x y color) canvas) canvas

/-- Fills a circle. -/
def fillCircle (canvas : Canvas) (centerX centerY : Int) (radius : Nat) (color : Color) :
    Canvas :=
  let left := max (-(radius : Int)) (-centerX)
  let top := max (-(radius : Int)) (-centerY)
  let right := min (radius : Int) (canvas.width - centerX)
  let bottom := min (radius : Int) (canvas.height - centerY)
  loop top bottom (fun canvas dy =>
    loop left right (fun canvas dx =>
      if insideCircle radius dx dy then
        canvas.blend (wrappedCoordinate (centerX + dx)) (wrappedCoordinate (centerY + dy)) color
      else canvas) canvas) canvas

/-- Draws an image, scaled to a destination by taking the nearest sample. -/
def drawImage (canvas : Canvas) (bounds : Rect) (image : Image) : Canvas :=
  if image.width = 0 ∨ image.height = 0 ∨ bounds.isEmpty then canvas
  else
    loop 0 bounds.height (fun canvas dy =>
      loop 0 bounds.width (fun canvas dx =>
        match image.pixel? (sampleAt dx.toNat bounds.width image.width)
            (sampleAt dy.toNat bounds.height image.height) with
        | none => canvas
        | some color =>
          canvas.blend (saturatedSum bounds.x (wrappedCoordinate dx))
            (saturatedSum bounds.y (wrappedCoordinate dy)) color) canvas) canvas

/-- Paints one command. There are no fonts to draw a text with. -/
def paint (canvas : Canvas) : Command → Canvas
  | .fillRect bounds color => canvas.fillRect bounds color
  | .fillCircle centerX centerY radius color => canvas.fillCircle centerX centerY radius color
  | .drawText _ _ => canvas
  | .drawImage bounds image => canvas.drawImage bounds image

/-- Paints commands in order. -/
def paintAll (canvas : Canvas) (commands : List Command) : Canvas :=
  commands.foldl paint canvas

/-- The picture that commands make on a blank canvas. -/
def picture (width height : Nat) (commands : List Command) : Canvas :=
  (blank width height).paintAll commands

end Canvas

end BoxFlow
