import BoxFlow.Number.Rounding
import BoxFlow.Text.Cut
import BoxFlow.Text.Numeral

/-!
# Colors

A color has four channels of one byte; alpha 255 covers everything behind it.
Hexadecimal notation reads three, four, six or eight digits and writes six, or
eight where alpha matters.
-/

namespace BoxFlow

/-- Red, green, blue and alpha. -/
structure Color where
  r : UInt8
  g : UInt8
  b : UInt8
  a : UInt8 := 255
deriving DecidableEq, Repr, Inhabited

namespace Color

/-- The darkest color. -/
def black : Color := ⟨0, 0, 0, 255⟩

/-- The brightest color. -/
def white : Color := ⟨255, 255, 255, 255⟩

/-- Black that leaves everything behind it visible. -/
def transparent : Color := ⟨0, 0, 0, 0⟩

/-- The color of a number `0xRRGGBB`, with alpha 255. -/
def ofPacked (n : Nat) : Color :=
  ⟨.ofNat (n / 0x10000), .ofNat (n / 0x100), .ofNat n, 255⟩

/-! ## Hexadecimal notation -/

/-- A byte from its two hexadecimal digits. -/
def byteOf (high low : Nat) : UInt8 := .ofNat (16 * high + low)

/-- The color of three, four, six or eight hexadecimal digits. A short form
stands for the long one with each digit doubled. -/
def ofHexDigits? : List Nat → Option Color
  | [r, g, b] => some ⟨byteOf r r, byteOf g g, byteOf b b, 255⟩
  | [r, g, b, a] => some ⟨byteOf r r, byteOf g g, byteOf b b, byteOf a a⟩
  | [r, r', g, g', b, b'] => some ⟨byteOf r r', byteOf g g', byteOf b b', 255⟩
  | [r, r', g, g', b, b', a, a'] =>
    some ⟨byteOf r r', byteOf g g', byteOf b b', byteOf a a'⟩
  | _ => none

/-- Reads a hexadecimal notation with or without its hash. -/
def ofHex? (cs : List Char) : Option Color :=
  ((Text.dropLeading '#' cs).mapM Text.hexValue?).bind ofHexDigits?

/-- Two hexadecimal digits of a byte. -/
def byteDigits (n : UInt8) : List Char := Text.hexDigits 2 n.toNat

/-- Hexadecimal notation, with alpha only where it is not 255. -/
def toHex (c : Color) : List Char :=
  '#' :: byteDigits c.r ++ byteDigits c.g ++ byteDigits c.b ++
    (if c.a = 255 then [] else byteDigits c.a)

/-! ## Channels from numbers -/

/-- The byte nearest to a float; a half goes up. -/
def roundedByte (x : Float) : UInt8 := .ofNat (roundWithin64 0 255 x).toNat

/-- The byte below or at a float. -/
def truncatedByte (x : Float) : UInt8 := .ofNat (truncateWithin64 0 255 x).toNat

/-- Alpha scaled by an opacity, which is first moved into `0..1`. -/
def withOpacity (c : Color) (opacity : Float32) : Color :=
  let alpha := c.a.toFloat32 * clamp32 0 1 opacity
  { c with a := .ofNat (roundWithin32 0 255 alpha).toNat }

/-- One channel of a hue, from its position on the hue circle and the two levels
between which the channels lie. -/
def hueChannel (low high position : Float) : UInt8 :=
  let turn := if position < 0 then position + 1 else position
  let turn := if 1 < turn then turn - 1 else turn
  let level :=
    if 6 * turn < 1 then fusedMulAdd64 (high - low) (6 * turn) low
    else if 2 * turn < 1 then high
    else if 3 * turn < 2 then fusedMulAdd64 (high - low) ((2 / 3 - turn) * 6) low
    else low
  roundedByte (level * 255)

/-- The color of a hue in degrees, and saturation and lightness in percent. -/
def ofHsl (hue saturation lightness : Float) : Color :=
  let hue := wrapAround 360 hue / 360
  let s := saturation / 100
  let l := lightness / 100
  if s == 0 then
    let gray := roundedByte (l * 255)
    ⟨gray, gray, gray, 255⟩
  else
    let high := if l < 0.5 then l * (1 + s) else l + s - l * s
    let low := 2 * l - high
    ⟨hueChannel low high (hue + 1 / 3), hueChannel low high (hue + 0),
     hueChannel low high (hue + -(1 / 3)), 255⟩

end Color

end BoxFlow
