import BoxFlow.Number.Rounding

/-!
# Zones

A node is laid out in the zone still available to it and reports the space it
used up.
-/

namespace BoxFlow

/-- A rectangle by its left, top, right and bottom edges. -/
structure Zone where
  x : Float32
  y : Float32
  maxX : Float32
  maxY : Float32

namespace Zone

/-- The zone of a size with its origin at a point. -/
def ofSize (x y width height : Float32) : Zone :=
  ⟨x, y, x + width, y + height⟩

/-- The available width, which is not negative. -/
def width (z : Zone) : Float32 := max32 (z.maxX - z.x) 0

/-- The available height, which is not negative. -/
def height (z : Zone) : Float32 := max32 (z.maxY - z.y) 0

end Zone

/-- Space used up by a node. A node on a line of its own reports a height only;
one within a line reports the width by which it moves the line on, and the
height it needs. -/
structure Consumed where
  width : Float32 := 0
  height : Float32 := 0

end BoxFlow
