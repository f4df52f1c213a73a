import BoxFlow.Files.FileTree
import BoxFlow.Image.Basic
import BoxFlow.Text.Numeral

/-!
# Portable pixmaps

An image in a file is a portable pixmap with three bytes per pixel: the letters
`P6`, then width, height and the greatest sample as decimal numerals, each ended
by a blank, then the samples row by row. Only a greatest sample of 255 is read.
Every pixel is opaque.
-/

namespace BoxFlow.Pixmap

/-- Blanks of the header: space, tab, line feed, vertical tab, form feed, carriage
return. -/
def isBlank (b : UInt8) : Bool := b == 32 || (9 ≤ b && b ≤ 13)

/-- Drops the rest of a comment and the end of its line. -/
def afterComment (bytes : List UInt8) : List UInt8 :=
  (bytes.dropWhile fun b => b != 10 && b != 13).drop 1

/-- A word of the header and what follows the blank behind it. Blanks in front and
comments anywhere are skipped. -/
def word? : Nat → List UInt8 → List UInt8 → Option (List UInt8 × List UInt8)
  | 0, _, _ => none
  | _, _, [] => none
  | steps + 1, seen, b :: rest =>
    if b == 35 then word? steps seen (afterComment rest)
    else if !isBlank b then word? steps (seen ++ [b]) rest
    else if seen.isEmpty then word? steps seen rest
    else some (seen, rest)

/-- A number of the header, of at most 32 bits, and what follows it. -/
def number? (bytes : List UInt8) : Option (Nat × List UInt8) := do
  let (digits, rest) ← word? bytes.length [] bytes
  let n ← Text.readNatUpTo? 4294967295 (digits.map fun b => Char.ofNat b.toNat)
  some (n, rest)

/-- Opaque pixels from samples, three at a time. -/
def opaquePixels : List UInt8 → List UInt8
  | r :: g :: b :: rest => r :: g :: b :: 255 :: opaquePixels rest
  | _ => []

/-- The image that the bytes of a pixmap describe. More bytes than the pixels need
are ignored. -/
def decode? (bytes : Bytes) : Option Image :=
  match bytes.toList with
  | 80 :: 54 :: rest => do
    let (width, rest) ← number? rest
    let (height, rest) ← number? rest
    let (greatest, rest) ← number? rest
    if greatest = 255 then
      Image.ofBytes? width height (opaquePixels (rest.take (width * height * 3))).toArray
    else none
  | _ => none

end BoxFlow.Pixmap
