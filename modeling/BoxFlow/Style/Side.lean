/-!
# Sides of a box

The four sides in the order in which a value with four parts lists them, and the
names of the properties that belong to one side.
-/

namespace BoxFlow

/-- A side of a box. -/
inductive Side where
  | top
  | right
  | bottom
  | left
deriving DecidableEq, Repr

/-- What a border consists of. -/
inductive BorderPart where
  | width
  | style
  | color
deriving DecidableEq, Repr

namespace Side

/-- The four sides, clockwise from the top. -/
def all : List Side := [top, right, bottom, left]

/-- The side as part of a property name. -/
def name : Side → String
  | top => "top"
  | right => "right"
  | bottom => "bottom"
  | left => "left"

end Side

/-- The border part as part of a property name. -/
def BorderPart.name : BorderPart → String
  | width => "width"
  | style => "style"
  | color => "color"

namespace Side

/-- The property for one part of the border on this side. -/
def border (side : Side) (part : BorderPart) : String :=
  "border-" ++ side.name ++ "-" ++ part.name

/-- The property for the padding on this side. -/
def padding (side : Side) : String := "padding-" ++ side.name

/-- The property for the margin on this side. -/
def margin (side : Side) : String := "margin-" ++ side.name

end Side

/-- A value for each side. -/
structure Sides (α : Type) where
  top : α
  right : α
  bottom : α
  left : α
deriving DecidableEq, Repr

namespace Sides

variable {α : Type}

/-- The value of each side by a function. -/
def ofFn (f : Side → α) : Sides α :=
  ⟨f .top, f .right, f .bottom, f .left⟩

/-- The value of one side. -/
def get (values : Sides α) : Side → α
  | .top => values.top
  | .right => values.right
  | .bottom => values.bottom
  | .left => values.left

/-- One to four values shared out: one for all sides; vertical and horizontal;
top, horizontal and bottom; or one per side. -/
def ofList? : List α → Option (Sides α)
  | [all] => some ⟨all, all, all, all⟩
  | [vertical, horizontal] => some ⟨vertical, horizontal, vertical, horizontal⟩
  | [top, horizontal, bottom] => some ⟨top, horizontal, bottom, horizontal⟩
  | [top, right, bottom, left] => some ⟨top, right, bottom, left⟩
  | _ => none

end Sides

end BoxFlow
