import BoxFlow.Stylesheet.Block
import BoxFlow.Stylesheet.Validity
import BoxFlow.Warning

/-!
# Shorthands

A shorthand is stored as written and also as the longhands it stands for, in the
same block, so that the later of two declarations wins whichever form it has. A
longhand is set only to a value that is acceptable for it.
-/

namespace BoxFlow

/-- A property that stands for several others: the border of some sides, or a
property with one longhand per side. -/
inductive Shorthand where
  | border (sides : List Side)
  | perSide (longhand : Side → String)

namespace Shorthand

/-- The shorthand of that name, if it is one. -/
def ofName? (name : String) : Option Shorthand :=
  match name with
  | "border" => some (border Side.all)
  | "border-top" => some (border [.top])
  | "border-right" => some (border [.right])
  | "border-bottom" => some (border [.bottom])
  | "border-left" => some (border [.left])
  | "border-color" => some (perSide (Side.border · .color))
  | "border-style" => some (perSide (Side.border · .style))
  | "border-width" => some (perSide (Side.border · .width))
  | "margin" => some (perSide Side.margin)
  | "padding" => some (perSide Side.padding)
  | _ => none

end Shorthand

/-- The part of a border that a token describes: a width, else a style, else a
color. -/
def BorderPart.ofToken (token : String) : BorderPart :=
  if Value.isBorderWidth token then .width
  else if Length.isBorderStyle token then .style
  else .color

namespace Block

/-- Declares a property if the value is acceptable for it. -/
def setIfValid (b : Block) (name value : String) : Block :=
  if Value.isValid name value then b.set name value else b

/-- Declares each token of a border on one side. -/
def setBorder (b : Block) (side : Side) (tokens : List String) : Block :=
  tokens.foldl (fun b token => b.setIfValid (side.border (BorderPart.ofToken token)) token) b

/-- Declares the longhand of every side, clockwise from the top. -/
def setSides (b : Block) (longhand : Side → String) (values : Sides String) : Block :=
  Side.all.foldl (fun b side => b.setIfValid (longhand side) (values.get side)) b

/-- Declares a property with everything it stands for. A value of no or more than
four tokens leaves a shorthand with one longhand per side undeclared. -/
def declare (b : Block) (name value : String) : Block :=
  match Shorthand.ofName? name with
  | none => b.set name value
  | some (.border sides) =>
    sides.foldl (fun b side => b.setBorder side (Value.tokens value)) (b.set name value)
  | some (.perSide longhand) =>
    match Sides.ofList? (Value.tokens value) with
    | some values => (b.set name value).setSides longhand values
    | none => b

/-- The warning about a declaration that `declare` ignores. -/
def ignored? (name value : String) : Option Warning :=
  match Shorthand.ofName? name with
  | some (.perSide _) =>
    let count := (Value.tokens value).length
    if 1 ≤ count && count ≤ 4 then none
    else some (.css ("'" ++ name ++ ": " ++ value ++ "' has " ++ toString count ++
      " values, expected 1 to 4; ignored"))
  | _ => none

end Block

end BoxFlow
