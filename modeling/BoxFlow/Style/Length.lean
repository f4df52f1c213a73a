import BoxFlow.Number.Decimal
import BoxFlow.Text.Blank

/-!
# Lengths

Lengths are given in pixels or in em; one em is always sixteen pixels, whatever
the font size. Border widths may also be one of three keywords or a bare number.
-/

namespace BoxFlow.Length

/-- Pixels per em. -/
def emPixels : Float32 := 16

/-- Font size where nothing sets one. -/
def defaultFontSize : Float32 := 16

/-- A finite number that ends in a digit or a point. -/
def number? (cs : List Char) : Option Float32 :=
  match cs.getLast? with
  | none => none
  | some last =>
    if last.isDigit || last == '.' then (readFloat32? cs).filter Float32.isFinite else none

/-- Pixels of a length; zero needs no unit. -/
def read? (value : String) : Option Float32 :=
  let cs := Text.trim value.toList
  match "px".toList.isSuffixOf? cs with
  | some digits => number? digits
  | none =>
    match "em".toList.isSuffixOf? cs with
    | some digits => (number? digits).map (· * emPixels)
    | none => if cs = ['0'] then some 0 else none

/-- Pixels of a border width; negative ones are refused. -/
def borderWidth? (value : String) : Option Float32 :=
  let cs := Text.trim value.toList
  let width :=
    if cs = "thin".toList then some 1
    else if cs = "medium".toList then some 2
    else if cs = "thick".toList then some 3
    else number? (("px".toList.isSuffixOf? cs).getD cs)
  width.filter fun w => 0 ≤ w

/-- The keywords for the style of a border. -/
def borderStyles : List String :=
  ["none", "hidden", "dotted", "dashed", "solid", "double", "groove", "ridge", "inset", "outset"]

/-- Whether a value is a border style. -/
def isBorderStyle (value : String) : Bool :=
  borderStyles.contains (Text.trimmed value)

end BoxFlow.Length
