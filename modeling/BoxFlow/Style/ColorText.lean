import BoxFlow.Number.Decimal
import BoxFlow.Style.ColorNames

/-!
# Color notations

The value of a color property is a keyword, a hexadecimal notation, or one of
the functions rgb, rgba, hsl and hsla. The keywords that defer to another color
are told apart from concrete colors.
-/

namespace BoxFlow

/-- What a color value stands for. -/
inductive ColorText where
  | color (c : Color)
  | inherit
deriving DecidableEq, Repr

namespace ColorText

/-- Whether a value, as it stands, defers to another color. -/
def isInheritKeyword (value : String) : Bool :=
  value == "inherit" || value == "currentColor" || value == "currentcolor"

/-- A whole-number channel, moved into `0..255`. -/
def wholeChannel? (cs : List Char) : Option UInt8 :=
  (Text.readInt64? cs).map fun n => .ofNat (max 0 (min 255 n)).toNat

/-- A number followed by a percent sign, moved into `0..100`. -/
def percentage? (cs : List Char) : Option Float :=
  (['%'].isSuffixOf? cs).bind fun digits => (readFloat? digits).map (clamp64 0 100)

/-- A channel given as a percentage. -/
def percentChannel? (cs : List Char) : Option UInt8 :=
  (percentage? cs).map fun percent => Color.truncatedByte (percent / 100 * 255)

/-- Three channels, all whole numbers or all percentages. -/
def rgb? (r g b : List Char) : Option Color :=
  let percentages := ([r, g, b].filter fun cs => cs.getLast? == some '%').length
  let channel? := if percentages = 3 then percentChannel? else wholeChannel?
  if percentages = 0 ∨ percentages = 3 then do
    some ⟨← channel? r, ← channel? g, ← channel? b, 255⟩
  else none

/-- Hue in degrees, with or without its unit, saturation and lightness. -/
def hsl? (h s l : List Char) : Option Color := do
  let hue ← readFloat? (("deg".toList.isSuffixOf? h).getD h)
  some (Color.ofHsl hue (← percentage? s) (← percentage? l))

/-- A color with its alpha replaced by a number, which is moved into `0..1`. -/
def withAlpha? (c : Color) (alpha : List Char) : Option Color :=
  (readFloat? alpha).map fun a => { c with a := Color.truncatedByte (clamp64 0 1 a * 255) }

/-- A color function by name and arguments, in lower case and without blanks. -/
def function? (name : List Char) (arguments : List (List Char)) : Option Color :=
  match arguments with
  | [x, y, z] =>
    if name = "rgb".toList then rgb? x y z
    else if name = "hsl".toList then hsl? x y z
    else none
  | [x, y, z, alpha] =>
    if name = "rgba".toList then (rgb? x y z).bind (withAlpha? · alpha)
    else if name = "hsla".toList then (hsl? x y z).bind (withAlpha? · alpha)
    else none
  | _ => none

/-- A color function as written. Blanks count for nothing, wherever they stand. -/
def functional? (cs : List Char) : Option Color := do
  let compact := (cs.filter fun c => !Text.isBlank c).map Char.toLower
  let call ← [')'].isSuffixOf? compact
  let (name, arguments) ← Text.cutAt? '(' call
  function? name (Text.pieces ',' arguments)

/-- A concrete color: hexadecimal, keyword or function. -/
def concrete? (cs : List Char) : Option Color :=
  if cs.head? = some '#' then Color.ofHex? cs
  else match Color.named? (.ofList cs) with
    | some c => some c
    | none => functional? cs

/-- Reads the value of a color property. -/
def read? (value : String) : Option ColorText :=
  let cs := Text.trim value.toList
  if isInheritKeyword (.ofList cs) then some .inherit
  else (concrete? cs).map .color

end ColorText

end BoxFlow
