import BoxFlow.Text.Cut
import BoxFlow.Text.Numeral

/-!
# Writing JSON

Strings are written with the escapes that the format requires and no others. An
object is written over several lines, a member a line, two spaces deeper than
the object itself.
-/

namespace BoxFlow.Json

/-- How a character is written inside a string. -/
def escaped (c : Char) : List Char :=
  if c = '"' ∨ c = '\\' then ['\\', c]
  else if c = '\n' then ['\\', 'n']
  else if c = '\t' then ['\\', 't']
  else if c = '\r' then ['\\', 'r']
  else if c = '\x08' then ['\\', 'b']
  else if c = '\x0c' then ['\\', 'f']
  else if c.toNat < 32 then '\\' :: 'u' :: Text.hexDigits 4 c.toNat
  else [c]

/-- A string as written. -/
def writtenString (s : String) : String :=
  .ofList ('"' :: s.toList.flatMap escaped ++ ['"'])

/-- Spaces in front of a line. -/
def indentation (depth : Nat) : String :=
  .ofList (List.replicate (2 * depth) ' ')

/-- An object of members whose values are written already. -/
def writtenObject (depth : Nat) (members : List (String × String)) : String :=
  if members.isEmpty then "\x7b\x7d"
  else
    let lines := members.map fun (name, value) =>
      indentation (depth + 1) ++ writtenString name ++ ": " ++ value
    "\x7b\n" ++ Text.joinWith ",\n" lines ++ "\n" ++ indentation depth ++ "\x7d"

end BoxFlow.Json
