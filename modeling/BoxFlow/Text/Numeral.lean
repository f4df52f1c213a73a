/-!
# Decimal numerals for whole numbers

A numeral is an optional sign followed by one or more ASCII digits. The readers
with bounds refuse a numeral whose value lies outside them.
-/

namespace BoxFlow.Text

/-- Value of a run of ASCII digits, most significant first. -/
def digitsValue (cs : List Char) : Nat :=
  cs.foldl (fun value c => 10 * value + (c.toNat - '0'.toNat)) 0

/-- Value of one or more ASCII digits and nothing else. -/
def readDigits? (cs : List Char) : Option Nat :=
  if cs.isEmpty || !cs.all Char.isDigit then none else some (digitsValue cs)

/-- Value of an optional sign and one or more ASCII digits. -/
def readSigned? : List Char → Option Int
  | '-' :: cs => (readDigits? cs).map fun n => -(n : Int)
  | '+' :: cs => (readDigits? cs).map fun n => (n : Int)
  | cs => (readDigits? cs).map fun n => (n : Int)

/-- A signed numeral whose value lies between `low` and `high`. -/
def readWithin? (low high : Int) (cs : List Char) : Option Int :=
  (readSigned? cs).filter fun n => low ≤ n && n ≤ high

/-- Whether a number with its sign fits in 64 bits. -/
def isInt64 (n : Int) : Bool :=
  -9223372036854775808 ≤ n && n ≤ 9223372036854775807

/-- A signed numeral that fits in 64 bits. -/
def readInt64? (cs : List Char) : Option Int :=
  readWithin? (-9223372036854775808) 9223372036854775807 cs

/-- A numeral without a minus sign whose value is at most `high`. -/
def readNatUpTo? (high : Nat) : List Char → Option Nat
  | '+' :: cs => (readDigits? cs).filter (· ≤ high)
  | cs => (readDigits? cs).filter (· ≤ high)

/-- Hexadecimal digits of `n`, lower case, at least `width` of them. -/
def hexDigits (width n : Nat) : List Char :=
  let digits := Nat.toDigits 16 n
  List.replicate (width - digits.length) '0' ++ digits

/-- Decimal digits of `n`, at least `width` of them. -/
def paddedDigits (width n : Nat) : List Char :=
  let digits := Nat.toDigits 10 n
  List.replicate (width - digits.length) '0' ++ digits

/-- Value of a hexadecimal digit of either case. -/
def hexValue? (c : Char) : Option Nat :=
  if c.isDigit then some (c.toNat - '0'.toNat)
  else if 'a' ≤ c && c ≤ 'f' then some (c.toNat - 'a'.toNat + 10)
  else if 'A' ≤ c && c ≤ 'F' then some (c.toNat - 'A'.toNat + 10)
  else none

end BoxFlow.Text
