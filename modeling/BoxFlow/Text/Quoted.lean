import BoxFlow.Text.Numeral
import BoxFlow.Text.Unshown

/-!
# Quoted texts

Messages show a text between quotes so that blank and invisible characters can
be told apart. The quote itself and the backslash are escaped, the common
control characters have a letter, and every other unshown character is written
by its code point.
-/

namespace BoxFlow.Text

/-- How one character is written inside a text quoted with `quote`. -/
def escaped (quote c : Char) : List Char :=
  if c = quote ∨ c = '\\' then ['\\', c]
  else if c = '\n' then ['\\', 'n']
  else if c = '\t' then ['\\', 't']
  else if c = '\r' then ['\\', 'r']
  else if c = '\x00' then ['\\', '0']
  else if isUnshown c then "\\u\x7b".toList ++ hexDigits 1 c.toNat ++ ['\x7d']
  else [c]

/-- A text in double quotes. -/
def quoted (s : String) : String :=
  .ofList ('"' :: s.toList.flatMap (escaped '"') ++ ['"'])

/-- A character in single quotes. -/
def quotedChar (c : Char) : String :=
  .ofList ('\'' :: escaped '\'' c ++ ['\''])

end BoxFlow.Text
