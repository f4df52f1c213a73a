import BoxFlow.Number.Binary
import BoxFlow.Text.Numeral

/-!
# Decimal notation of floating-point numbers

`Numeral.read?` accepts the decimal notations of a float: an optional sign, then
digits with at most one point among or beside them and an optional exponent, or
one of the words for infinity and not-a-number. The value is the float nearest
to the exact decimal. `shortest` writes the fewest digits that read back.
-/

namespace BoxFlow

/-- What a decimal notation stands for; `decimal negative digits exponent` is
`digits * 10 ^ exponent` with a sign. -/
inductive Numeral where
  | decimal (negative : Bool) (digits : Nat) (exponent : Int)
  | infinite (negative : Bool)
  | notANumber
deriving DecidableEq, Repr

namespace Numeral

/-- Splits a sign off: whether it was a minus, and the rest. -/
def readSign : List Char → Bool × List Char
  | '-' :: cs => (true, cs)
  | '+' :: cs => (false, cs)
  | cs => (false, cs)

/-- An optional exponent that ends the text. -/
def readExponent? : List Char → Option Int
  | [] => some 0
  | c :: cs => if c = 'e' ∨ c = 'E' then Text.readSigned? cs else none

/-- Digits, an optional point with digits after it, and an optional exponent.
At least one digit stands on one side of the point. -/
def readUnsigned? (negative : Bool) (cs : List Char) : Option Numeral :=
  let whole := cs.takeWhile Char.isDigit
  let afterWhole := cs.dropWhile Char.isDigit
  let (fraction, rest) := match afterWhole with
    | '.' :: ds => (ds.takeWhile Char.isDigit, ds.dropWhile Char.isDigit)
    | ds => ([], ds)
  if whole.isEmpty && fraction.isEmpty then none
  else (readExponent? rest).map fun exponent =>
    .decimal negative (Text.digitsValue (whole ++ fraction)) (exponent - fraction.length)

/-- Reads a whole text as a number. -/
def read? (cs : List Char) : Option Numeral :=
  let (negative, body) := readSign cs
  let word := body.map Char.toLower
  if word = "inf".toList ∨ word = "infinity".toList then some (.infinite negative)
  else if word = "nan".toList then some .notANumber
  else readUnsigned? negative body

/-- A power of ten at which every decimal digit lies far outside both float
formats, so that the value is known without computing it. -/
def farExponent : Int := 400

/-- The nearest single-precision float. -/
def toFloat32 : Numeral → Float32
  | .notANumber => 0.0 / 0.0
  | .infinite negative => if negative then -(1.0 / 0.0) else 1.0 / 0.0
  | .decimal negative digits exponent =>
    let top := exponent + (Nat.toDigits 10 digits).length
    let size : Float32 :=
      if digits = 0 ∨ top < -farExponent then 0.0
      else if farExponent < top then 1.0 / 0.0
      else .ofScientific digits (exponent < 0) exponent.natAbs
    if negative then -size else size

/-- The nearest double-precision float. -/
def toFloat : Numeral → Float
  | .notANumber => 0.0 / 0.0
  | .infinite negative => if negative then -(1.0 / 0.0) else 1.0 / 0.0
  | .decimal negative digits exponent =>
    let top := exponent + (Nat.toDigits 10 digits).length
    let size : Float :=
      if digits = 0 ∨ top < -farExponent then 0.0
      else if farExponent < top then 1.0 / 0.0
      else .ofScientific digits (exponent < 0) exponent.natAbs
    if negative then -size else size

end Numeral

/-- A text read as a single-precision float. -/
def readFloat32? (cs : List Char) : Option Float32 :=
  (Numeral.read? cs).map Numeral.toFloat32

/-- A text read as a double-precision float. -/
def readFloat? (cs : List Char) : Option Float :=
  (Numeral.read? cs).map Numeral.toFloat

/-- The point of the grid of multiples of `10 ^ place` that is nearest to
`value / unit` among those within the bounds, in units of the grid. Bounds count
as inside when `closed` holds. -/
def nearestOnGrid? (low value high unit : Nat) (closed : Bool) (place : Int) : Option Nat :=
  let (up, down) := match place with
    | .ofNat k => (1, pow10 k)
    | .negSucc k => (pow10 (k + 1), 1)
  let step := unit * down
  let below := value * up / step
  let inside (n : Nat) : Bool :=
    if closed then low * up ≤ n * step && n * step ≤ high * up
    else low * up < n * step && n * step < high * up
  let distance (n : Nat) : Nat := (n * step - value * up) + (value * up - n * step)
  match inside below, inside (below + 1) with
  | true, true => some (if distance below ≤ distance (below + 1) then below else below + 1)
  | true, false => some below
  | false, true => some (below + 1)
  | false, false => none

/-- The coarsest grid with a point inside the bounds, starting at `place` and
trying at most `tries` finer ones: the point and its grid. -/
def coarsestOnGrid (low value high unit : Nat) (closed : Bool) : Nat → Int → Nat × Int
  | 0, place => (0, place)
  | tries + 1, place =>
    match nearestOnGrid? low value high unit closed place with
    | some n => (n, place)
    | none => coarsestOnGrid low value high unit closed tries (place - 1)

/-- Positional notation of `digits * 10 ^ place`: no exponent, no fraction where
there is nothing after the point. -/
def positional (digits : Nat) (place : Int) : List Char :=
  match place with
  | .ofNat k => Nat.toDigits 10 (digits * pow10 k)
  | .negSucc k =>
    let all := Text.paddedDigits (k + 2) digits
    let (whole, fraction) := all.splitAt (all.length - (k + 1))
    let kept := (fraction.reverse.dropWhile (· == '0')).reverse
    if kept.isEmpty then whole else whole ++ '.' :: kept

/-- The fewest digits that read back as the same single-precision float, in
positional notation. -/
def shortest (x : Float32) : String :=
  match scaled32? x with
  | none => if x.isNaN then "NaN" else if x < 0 then "-inf" else "inf"
  | some exact =>
    let size := exact.mantissa.natAbs
    let sign := if x.toBits.toNat / pow2 31 == 1 then ['-'] else []
    if size = 0 then .ofList (sign ++ ['0'])
    else
      -- Quarters of the last place, so that both ends of the rounding interval are whole.
      let narrow := size = pow2 23 ∧ BinaryFormat.single.lowestExponent < exact.exponent
      let scale : Nat × Nat := match exact.exponent - 2 with
        | .ofNat e => (pow2 e, 1)
        | .negSucc e => (1, pow2 (e + 1))
      let value := 4 * size * scale.1
      let low := (4 * size - if narrow then 1 else 2) * scale.1
      let high := (4 * size + 2) * scale.1
      let (digits, place) := coarsestOnGrid low value high scale.2 (size % 2 == 0) 100 39
      .ofList (sign ++ positional digits place)

end BoxFlow
