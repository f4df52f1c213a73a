import BoxFlow.Number.Power

/-!
# Binary floating-point numbers as exact fractions

A finite binary float is a whole number times a power of two. `BinaryFormat`
reads that pair off the bits and writes the nearest float to such a pair back,
so that an operation with a single rounding can be computed exactly first and
rounded once. Fused multiplication and addition is such an operation; so is
rounding to a whole number.
-/

namespace BoxFlow

/-- The number `mantissa * 2 ^ exponent`. -/
structure Scaled where
  mantissa : Int
  exponent : Int
deriving DecidableEq, Repr

namespace Scaled

/-- The mantissa that goes with a lower exponent. -/
def mantissaAt (x : Scaled) (exponent : Int) : Int :=
  x.mantissa * pow2 (x.exponent - exponent).toNat

/-- Exact product. -/
def mul (x y : Scaled) : Scaled :=
  ⟨x.mantissa * y.mantissa, x.exponent + y.exponent⟩

/-- Exact sum. -/
def add (x y : Scaled) : Scaled :=
  let low := min x.exponent y.exponent
  ⟨x.mantissaAt low + y.mantissaAt low, low⟩

/-- The nearest whole number; a half goes away from zero. -/
def round (x : Scaled) : Int :=
  let size := x.mantissa.natAbs
  let whole := match x.exponent with
    | .ofNat e => size * pow2 e
    | .negSucc e => (2 * size + pow2 (e + 1)) / pow2 (e + 2)
  if x.mantissa < 0 then -(whole : Int) else whole

/-- The whole part; the fraction is dropped. -/
def truncate (x : Scaled) : Int :=
  let size := x.mantissa.natAbs
  let whole := match x.exponent with
    | .ofNat e => size * pow2 e
    | .negSucc e => size / pow2 (e + 1)
  if x.mantissa < 0 then -(whole : Int) else whole

end Scaled

/-- Field widths of a binary interchange format: sign, exponent, fraction. -/
structure BinaryFormat where
  fractionBits : Nat
  exponentBits : Nat
deriving DecidableEq, Repr

namespace BinaryFormat

/-- Thirty-two bits. -/
def single : BinaryFormat := ⟨23, 8⟩

/-- Sixty-four bits. -/
def double : BinaryFormat := ⟨52, 11⟩

/-- Power of two of the last fraction bit of the smallest numbers. -/
def lowestExponent (f : BinaryFormat) : Int :=
  2 - (pow2 (f.exponentBits - 1) : Int) - (f.fractionBits : Int)

/-- Bits of positive infinity. -/
def infinityBits (f : BinaryFormat) : Nat :=
  (pow2 f.exponentBits - 1) * pow2 f.fractionBits

/-- The number a bit pattern stands for; `none` for infinities and not-a-number. -/
def decode? (f : BinaryFormat) (bits : Nat) : Option Scaled :=
  let fraction := bits % pow2 f.fractionBits
  let biased := bits / pow2 f.fractionBits % pow2 f.exponentBits
  let negative := bits / pow2 (f.fractionBits + f.exponentBits) % 2 == 1
  let signed (size : Nat) : Int := if negative then -(size : Int) else size
  if biased = pow2 f.exponentBits - 1 then none
  else if biased = 0 then some ⟨signed fraction, f.lowestExponent⟩
  else some ⟨signed (fraction + pow2 f.fractionBits), f.lowestExponent + (biased - 1 : Nat)⟩

/-- `size / 2 ^ places`, to the nearest whole number, ties to the even one. -/
def roundTiesToEven (size places : Nat) : Nat :=
  let unit := pow2 places
  let low := size / unit
  let rest := 2 * (size % unit)
  if rest > unit || (rest == unit && low % 2 == 1) then low + 1 else low

/-- Bits of the nearest float, ties to even. A number beyond the largest float
becomes an infinity, and zero is positive. -/
def encode (f : BinaryFormat) (x : Scaled) : Nat :=
  let size := x.mantissa.natAbs
  if size = 0 then 0
  else
    let top := x.exponent + size.log2 - f.fractionBits
    let target := max top f.lowestExponent
    let kept := match target - x.exponent with
      | .ofNat places => roundTiesToEven size places
      | .negSucc places => size * pow2 (places + 1)
    -- A normal number keeps its leading bit in `kept`, where it raises the exponent field by one.
    let bits := min ((target - f.lowestExponent).toNat * pow2 f.fractionBits + kept) f.infinityBits
    if x.mantissa < 0 then bits + pow2 (f.fractionBits + f.exponentBits) else bits

end BinaryFormat

/-- The exact value of a finite float. -/
def scaled32? (x : Float32) : Option Scaled :=
  BinaryFormat.single.decode? x.toBits.toNat

/-- The exact value of a finite float. -/
def scaled64? (x : Float) : Option Scaled :=
  BinaryFormat.double.decode? x.toBits.toNat

/-- `x * y + z` rounded once. The plain operations are exact where the product
vanishes and already right where a value is not finite. -/
def fusedMulAdd32 (x y z : Float32) : Float32 :=
  match scaled32? x, scaled32? y, scaled32? z with
  | some a, some b, some c =>
    if (a.mul b).mantissa = 0 then x * y + z
    else .ofBits (.ofNat (BinaryFormat.single.encode ((a.mul b).add c)))
  | _, _, _ => x * y + z

/-- `x * y + z` rounded once, in double precision. -/
def fusedMulAdd64 (x y z : Float) : Float :=
  match scaled64? x, scaled64? y, scaled64? z with
  | some a, some b, some c =>
    if (a.mul b).mantissa = 0 then x * y + z
    else .ofBits (.ofNat (BinaryFormat.double.encode ((a.mul b).add c)))
  | _, _, _ => x * y + z

end BoxFlow
