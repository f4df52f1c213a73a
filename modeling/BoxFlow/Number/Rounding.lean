import BoxFlow.Number.Binary

/-!
# From floats to whole numbers, and floats kept in bounds

Conversions never fail: a value outside the target range becomes the nearer
bound, and not-a-number becomes 0. Comparisons of two floats for the larger or
the smaller one prefer any number over not-a-number.
-/

namespace BoxFlow

/-- The whole number inside `low..high` that stands for a float: the nearer
bound for anything beyond, and 0 for not-a-number. -/
def clampWith (whole : Scaled → Int) (low high : Int) (value : Option Scaled)
    (isNaN negative : Bool) : Int :=
  match value with
  | some x => max low (min high (whole x))
  | none => if isNaN then 0 else if negative then low else high

/-- Rounds half away from zero and clamps to `low..high`. -/
def roundWithin32 (low high : Int) (x : Float32) : Int :=
  clampWith Scaled.round low high (scaled32? x) x.isNaN (x < 0)

/-- Rounds half away from zero and clamps to `low..high`. -/
def roundWithin64 (low high : Int) (x : Float) : Int :=
  clampWith Scaled.round low high (scaled64? x) x.isNaN (x < 0)

/-- Drops the fraction and clamps to `low..high`. -/
def truncateWithin64 (low high : Int) (x : Float) : Int :=
  clampWith Scaled.truncate low high (scaled64? x) x.isNaN (x < 0)

/-- The larger of two floats; not-a-number loses against anything. -/
def max32 (x y : Float32) : Float32 :=
  if x.isNaN then y else if y.isNaN then x else if x < y then y else x

/-- The smaller of two floats; not-a-number loses against anything. -/
def min32 (x y : Float32) : Float32 :=
  if x.isNaN then y else if y.isNaN then x else if y < x then y else x

/-- `x` moved into `low..high`; not-a-number stays. -/
def clamp32 (low high x : Float32) : Float32 :=
  if x < low then low else if high < x then high else x

/-- `x` moved into `low..high`; not-a-number stays. -/
def clamp64 (low high x : Float) : Float :=
  if x < low then low else if high < x then high else x

/-- The remainder of `x` on division by a positive whole number, in `0..m`.
Not-a-number for values that are not finite. -/
def wrapAround (m : Nat) (x : Float) : Float :=
  match scaled64? x with
  | none => (0.0 : Float) / 0.0
  | some a =>
    let low := min a.exponent 0
    let rest := (a.mantissaAt low).tmod (m * pow2 (0 - low).toNat)
    if rest = 0 then if x < 0 then -(0.0 : Float) else x * 0.0
    else
      let r := Float.ofBits (.ofNat (BinaryFormat.double.encode ⟨rest, low⟩))
      if r < 0 then r + Float.ofNat m else r

end BoxFlow
