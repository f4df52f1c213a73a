import BoxFlow.Image.Basic
import BoxFlow.Paint.Rect
import BoxFlow.Style.Font

/-!
# Drawing commands

A layout is a list of commands in painting order: a later command covers an
earlier one.
-/

namespace BoxFlow

/-- A text with everything needed to draw it. -/
structure TextRun where
  text : String
  fontSize : Float32
  color : Color
  fontStyle : FontStyle
  fontWeight : FontWeight

/-- One step of painting. -/
inductive Command where
  | fillRect (bounds : Rect) (color : Color)
  | fillCircle (centerX centerY : Int) (radius : Nat) (color : Color)
  | drawText (bounds : Rect) (run : TextRun)
  | drawImage (bounds : Rect) (image : Image)

namespace Command

/-- The commands for filling a rectangle: none if it would leave no trace. -/
def fill (bounds : Rect) (color : Color) : List Command :=
  if bounds.isEmpty || color.a == 0 then [] else [fillRect bounds color]

/-- A rectangle outside which the command leaves everything as it is. -/
def bounds : Command → Rect
  | fillRect bounds _ => bounds
  | drawText bounds _ => bounds
  | drawImage bounds _ => bounds
  | fillCircle centerX centerY radius _ =>
    let reach := min (radius : Int) coordinateMax
    let side := (min (2 * (radius : Int)) extentMax).toNat
    ⟨max coordinateMin (centerX - reach), max coordinateMin (centerY - reach), side, side⟩

/-- The text a command draws. -/
def run? : Command → Option TextRun
  | drawText _ run => some run
  | _ => none

/-- The texts drawn by a list of commands, in order. -/
def runs (commands : List Command) : List TextRun :=
  commands.filterMap run?

end Command

end BoxFlow
