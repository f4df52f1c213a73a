import BoxFlow.Image.Basic
import BoxFlow.Paint.Blend

/-!
# Canvases

A canvas is a grid of pixels that colors are blended over, one pixel at a time.
Blending off the canvas does nothing.
-/

namespace BoxFlow

/-- Pixels row by row from the top. -/
structure Canvas where
  width : Nat
  height : Nat
  pixels : Array Color
  size_eq : pixels.size = width * height

namespace Canvas

/-- A canvas of one color. -/
def filled (width height : Nat) (color : Color) : Canvas where
  width := width
  height := height
  pixels := Array.replicate (width * height) color
  size_eq := Array.size_replicate

/-- A canvas before anything is painted. -/
def blank (width height : Nat) : Canvas := filled width height .white

/-- The pixel at a column and a row, `none` outside. -/
def pixel? (canvas : Canvas) (x y : Nat) : Option Color :=
  if x < canvas.width ∧ y < canvas.height then canvas.pixels[y * canvas.width + x]? else none

/-- Changes one pixel, if it is on the canvas. -/
def modify (canvas : Canvas) (x y : Nat) (change : Color → Color) : Canvas :=
  if x < canvas.width ∧ y < canvas.height then
    { canvas with
      pixels := canvas.pixels.modify (y * canvas.width + x) change
      size_eq := by simp [canvas.size_eq] }
  else canvas

/-- Blends a color over the pixel at a coordinate. An invisible color leaves no trace,
and there is no pixel off the canvas. -/
def blend (canvas : Canvas) (x y : Int) (color : Color) : Canvas :=
  if color.a = 0 ∨ x < 0 ∨ y < 0 then canvas
  else canvas.modify x.toNat y.toNat color.paintedOver

/-- The bytes of the pixels, row by row. -/
def bytes (canvas : Canvas) : Array UInt8 :=
  canvas.pixels.flatMap fun c => #[c.r, c.g, c.b, c.a]

end Canvas

end BoxFlow
