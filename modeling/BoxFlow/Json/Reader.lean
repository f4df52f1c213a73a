import BoxFlow.Json.Value
import BoxFlow.Number.Decimal
import BoxFlow.Text.Cut

/-!
# Reading JSON

`Json.read?` reads a whole text as one value with blank characters around it.
Each step returns what is left of the text. Arrays and objects may be nested
`maxNesting` deep, numbers have to fit a double-precision float, and a surrogate
escape has to be half of a pair.
-/

namespace BoxFlow.Json

/-- Deepest nesting of arrays and objects. -/
def maxNesting : Nat := 127

/-- Drops the blank characters of the format. -/
def skipBlank (cs : List Char) : List Char :=
  cs.dropWhile fun c => c == ' ' || c == '\n' || c == '\t' || c == '\r'

/-- Value of four hexadecimal digits, and the rest. -/
def readHex4? : List Char → Option (Nat × List Char)
  | a :: b :: c :: d :: rest => do
    let a ← Text.hexValue? a
    let b ← Text.hexValue? b
    let c ← Text.hexValue? c
    let d ← Text.hexValue? d
    some (((a * 16 + b) * 16 + c) * 16 + d, rest)
  | _ => none

/-- The character of an escape by code point, after the letter that opens it. A
code point beyond the first plane is written as two halves. -/
def readCodePoint? (cs : List Char) : Option (Char × List Char) := do
  let (unit, rest) ← readHex4? cs
  if 0xD800 ≤ unit && unit ≤ 0xDBFF then
    match rest with
    | '\\' :: 'u' :: low =>
      let (second, rest) ← readHex4? low
      if 0xDC00 ≤ second && second ≤ 0xDFFF then
        some (.ofNat (0x10000 + (unit - 0xD800) * 0x400 + (second - 0xDC00)), rest)
      else none
    | _ => none
  else if 0xDC00 ≤ unit && unit ≤ 0xDFFF then none
  else some (.ofNat unit, rest)

/-- The character of an escape, after its backslash. -/
def readEscape? : List Char → Option (Char × List Char)
  | '"' :: cs => some ('"', cs)
  | '\\' :: cs => some ('\\', cs)
  | '/' :: cs => some ('/', cs)
  | 'b' :: cs => some ('\x08', cs)
  | 'f' :: cs => some ('\x0c', cs)
  | 'n' :: cs => some ('\n', cs)
  | 'r' :: cs => some ('\r', cs)
  | 't' :: cs => some ('\t', cs)
  | 'u' :: cs => readCodePoint? cs
  | _ => none

/-- The characters up to the closing quote, and what follows it. At most `limit`
characters are read; `done` holds those already read, last one first. -/
def readStringBody? : Nat → List Char → List Char → Option (String × List Char)
  | 0, _, _ => none
  | _ + 1, _, [] => none
  | limit + 1, done, c :: cs =>
    if c = '"' then some (.ofList done.reverse, cs)
    else if c = '\\' then do
      let (d, rest) ← readEscape? cs
      readStringBody? limit (d :: done) rest
    else if c.toNat < 0x20 then none
    else readStringBody? limit (c :: done) cs

/-- A string, after its opening quote. -/
def readString? (cs : List Char) : Option (String × List Char) :=
  readStringBody? (cs.length + 1) [] cs

/-- One or more digits, and the rest. -/
def readDigitRun? (cs : List Char) : Option (List Char × List Char) :=
  let digits := cs.takeWhile Char.isDigit
  if digits.isEmpty then none else some (digits, cs.dropWhile Char.isDigit)

/-- The whole part of a number: a single zero, or digits that start otherwise. -/
def readWhole? : List Char → Option (List Char × List Char)
  | '0' :: cs => some (['0'], cs)
  | cs => readDigitRun? cs

/-- The fraction of a number with its point, empty when there is none. -/
def readFraction? : List Char → Option (List Char × List Char)
  | '.' :: cs => (readDigitRun? cs).map fun (digits, rest) => ('.' :: digits, rest)
  | cs => some ([], cs)

/-- The exponent of a number with its letter, empty when there is none. -/
def readPower? : List Char → Option (List Char × List Char)
  | c :: cs =>
    if c = 'e' ∨ c = 'E' then
      let (sign, digits) := match cs with
        | '+' :: ds => (['+'], ds)
        | '-' :: ds => (['-'], ds)
        | ds => ([], ds)
      (readDigitRun? digits).map fun (run, rest) => (c :: sign ++ run, rest)
    else some ([], c :: cs)
  | [] => some ([], [])

/-- Checks a number and drops it. -/
def readNumber? (cs : List Char) : Option (Json × List Char) := do
  let unsigned := Text.dropLeading '-' cs
  let (whole, rest) ← readWhole? unsigned
  let (fraction, rest) ← readFraction? rest
  let (power, rest) ← readPower? rest
  let value ← readFloat? (whole ++ fraction ++ power)
  if value.isInf then none else some (.number, rest)

/-- Text that follows a given word. -/
def afterWord? (word : String) (cs : List Char) : Option (List Char) :=
  word.toList.isPrefixOf? cs

/-- A value that is neither array nor object. -/
def readScalar? : List Char → Option (Json × List Char)
  | '"' :: cs => (readString? cs).map fun (s, rest) => (.string s, rest)
  | 't' :: cs => (afterWord? "rue" cs).map fun rest => (.bool true, rest)
  | 'f' :: cs => (afterWord? "alse" cs).map fun rest => (.bool false, rest)
  | 'n' :: cs => (afterWord? "ull" cs).map fun rest => (.null, rest)
  | cs => readNumber? cs

/-- The items of a non-empty array, after its opening bracket. -/
def readItems? (readValue? : List Char → Option (Json × List Char)) :
    Nat → List Json → List Char → Option (Json × List Char)
  | 0, _, _ => none
  | limit + 1, done, cs => do
    let (item, rest) ← readValue? (skipBlank cs)
    match skipBlank rest with
    | ']' :: rest => some (.array (item :: done).reverse, rest)
    | ',' :: rest => readItems? readValue? limit (item :: done) rest
    | _ => none

/-- The members of a non-empty object, after its opening brace. -/
def readMembers? (readValue? : List Char → Option (Json × List Char)) :
    Nat → List (String × Json) → List Char → Option (Json × List Char)
  | 0, _, _ => none
  | limit + 1, done, cs =>
    match skipBlank cs with
    | '"' :: cs => do
      let (name, rest) ← readString? cs
      match skipBlank rest with
      | ':' :: rest =>
        let (value, rest) ← readValue? (skipBlank rest)
        match skipBlank rest with
        | '\x7d' :: rest => some (.object ((name, value) :: done).reverse, rest)
        | ',' :: rest => readMembers? readValue? limit ((name, value) :: done) rest
        | _ => none
      | _ => none
    | _ => none

/-- A value in which arrays and objects are nested at most `nesting` deep. -/
def readValue? : Nat → List Char → Option (Json × List Char)
  | nesting, '[' :: cs =>
    match nesting, skipBlank cs with
    | 0, _ => none
    | _ + 1, ']' :: rest => some (.array [], rest)
    | nesting + 1, cs => readItems? (readValue? nesting) (cs.length + 1) [] cs
  | nesting, '\x7b' :: cs =>
    match nesting, skipBlank cs with
    | 0, _ => none
    | _ + 1, '\x7d' :: rest => some (.object [], rest)
    | nesting + 1, cs => readMembers? (readValue? nesting) (cs.length + 1) [] cs
  | _, cs => readScalar? cs

/-- Reads a whole text as one value. -/
def read? (cs : List Char) : Option Json :=
  match readValue? maxNesting (skipBlank cs) with
  | some (value, rest) => if (skipBlank rest).isEmpty then some value else none
  | none => none

end BoxFlow.Json
