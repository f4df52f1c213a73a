/-!
# Blank characters and trimming

`isBlank` is the Unicode property White_Space; values, names and selector texts
are trimmed of it. `isAsciiBlank` is the five-character class that separates the
names inside a `class` attribute.
-/

namespace BoxFlow.Text

/-- The characters with the Unicode property White_Space. -/
def isBlank (c : Char) : Bool :=
  let n := c.toNat
  (0x09 ≤ n && n ≤ 0x0D) || n == 0x20 || n == 0x85 || n == 0xA0 || n == 0x1680 ||
    (0x2000 ≤ n && n ≤ 0x200A) || n == 0x2028 || n == 0x2029 || n == 0x202F ||
    n == 0x205F || n == 0x3000

/-- Space, tab, line feed, form feed and carriage return. -/
def isAsciiBlank (c : Char) : Bool :=
  c == ' ' || c == '\t' || c == '\n' || c == '\x0c' || c == '\r'

/-- Drops the blank characters at the start. -/
def trimStart (cs : List Char) : List Char :=
  cs.dropWhile isBlank

/-- Drops the blank characters at the end. -/
def trimEnd (cs : List Char) : List Char :=
  (cs.reverse.dropWhile isBlank).reverse

/-- Drops the blank characters at both ends. -/
def trim (cs : List Char) : List Char :=
  trimEnd (trimStart cs)

/-- Whether nothing is left after trimming. -/
def isAllBlank (cs : List Char) : Bool :=
  cs.all isBlank

/-- A string without the blank characters at its ends. -/
def trimmed (s : String) : String :=
  .ofList (trim s.toList)

/-- ASCII letters in lower case, every other character as it is. -/
def lowercase (s : String) : String :=
  .ofList (s.toList.map Char.toLower)

/-- Equality that does not tell ASCII letters of different case apart. -/
def sameIgnoringCase (s t : String) : Bool :=
  s.toList.map Char.toLower == t.toList.map Char.toLower

end BoxFlow.Text
