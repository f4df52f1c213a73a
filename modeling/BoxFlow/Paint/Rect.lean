import BoxFlow.Number.Rounding

/-!
# Pixel rectangles

Rectangles in whole pixels. Coordinates fit 32 bits with a sign and sizes fit 32
bits without one; whatever would leave that range stops at its bound. A number that
is only turned into a coordinate keeps its lowest 32 bits instead.
-/

namespace BoxFlow

/-- Smallest coordinate. -/
def coordinateMin : Int := -2147483648

/-- Largest coordinate. -/
def coordinateMax : Int := 2147483647

/-- Largest width or height. -/
def extentMax : Int := 4294967295

/-- The coordinate with the lowest 32 bits of a number. -/
def wrappedCoordinate (n : Int) : Int := n.bmod 4294967296

/-- The sum of two coordinates, as far as there are coordinates. -/
def saturatedSum (m n : Int) : Int := max coordinateMin (min coordinateMax (m + n))

/-- The coordinate nearest to a float. -/
def coordinateOf (x : Float32) : Int :=
  roundWithin32 coordinateMin coordinateMax x

/-- The width or height nearest to a float; a negative one is zero. -/
def extentOf (x : Float32) : Nat :=
  (roundWithin32 0 extentMax (max32 x 0)).toNat

/-- A rectangle by its top left corner and its size. -/
structure Rect where
  x : Int
  y : Int
  width : Nat
  height : Nat
deriving DecidableEq, Repr

namespace Rect

/-- The whole pixels nearest to a layout rectangle. -/
def ofLayout (x y width height : Float32) : Rect :=
  ⟨coordinateOf x, coordinateOf y, extentOf width, extentOf height⟩

/-- Whether no pixel is covered. -/
def isEmpty (r : Rect) : Bool := r.width == 0 || r.height == 0

/-- One past the last coordinate of an extent. The extent counts up to the
largest coordinate, and so does the sum. -/
def farEdge (start : Int) (extent : Nat) : Int :=
  min coordinateMax (start + min (extent : Int) coordinateMax)

/-- One past the right edge. -/
def right (r : Rect) : Int := farEdge r.x r.width

/-- One past the bottom edge. -/
def bottom (r : Rect) : Int := farEdge r.y r.height

end Rect

end BoxFlow
