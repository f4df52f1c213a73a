import BoxFlow.Number.Overflow
import BoxFlow.Style.Color

/-!
# Images

An image is a grid of pixels, four bytes each, row after row from the top. The
number of bytes fits the sides, which is part of the type.

The sides of an image that is made from bytes have 32 bits each, and the number
of bytes they ask for is counted in 64 bits. For the largest sides the count does
not fit, and then there is no answer.
-/

namespace BoxFlow

/-- Pixels of red, green, blue and alpha, row by row. -/
structure Image where
  width : Nat
  height : Nat
  bytes : Array UInt8
  size_eq : bytes.size = width * height * 4
deriving DecidableEq

namespace Image

/-- The image of some bytes, if their number fits the sides. -/
def ofBytes? (width height : Nat) (bytes : Array UInt8) : Option Image :=
  if h : bytes.size = width * height * 4 then some ⟨width, height, bytes, h⟩ else none

/-- Makes an image from bytes: `none` if their number does not fit the sides, and a
failure if that cannot be counted. -/
def create (width height : UInt32) (bytes : Array UInt8) : Except Overflow (Option Image) :=
  if width.toNat * height.toNat * 4 < UInt64.size then .ok (ofBytes? width.toNat height.toNat bytes)
  else .error .multiplication

/-- An image of one color. -/
def filled (width height : Nat) (c : Color) : Image where
  width := width
  height := height
  bytes := Array.ofFn fun i : Fin (width * height * 4) =>
    match i.val % 4 with
    | 0 => c.r
    | 1 => c.g
    | 2 => c.b
    | _ => c.a
  size_eq := Array.size_ofFn

/-- The pixel at a column and a row, `none` outside. -/
def pixel? (image : Image) (x y : Nat) : Option Color :=
  if h : x < image.width ∧ y < image.height then
    let start := 4 * (y * image.width + x)
    have : start + 3 < image.bytes.size := by
      have size := image.size_eq
      have row : (y + 1) * image.width ≤ image.height * image.width :=
        Nat.mul_le_mul_right _ h.2
      rw [Nat.add_mul, Nat.one_mul, Nat.mul_comm image.height] at row
      omega
    some ⟨image.bytes[start], image.bytes[start + 1], image.bytes[start + 2],
      image.bytes[start + 3]⟩
  else none

end Image

end BoxFlow
