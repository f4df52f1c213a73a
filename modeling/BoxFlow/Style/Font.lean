import BoxFlow.Text.Blank
import BoxFlow.Text.Numeral

/-!
# Font keywords

Slant and weight of a font, each reduced to two faces. Unknown values stand for
the regular face.
-/

namespace BoxFlow

/-- The slant of a font. -/
inductive FontStyle where
  | normal
  | italic
deriving DecidableEq, Repr

/-- The weight of a font. -/
inductive FontWeight where
  | normal
  | bold
deriving DecidableEq, Repr

/-- Reads a slant; oblique counts as italic. -/
def FontStyle.read (value : String) : FontStyle :=
  let keyword := Text.trimmed value
  if keyword = "italic" ∨ keyword = "oblique" then .italic else .normal

/-- Reads a weight: a keyword, or a number of at least 600 for the bold face. -/
def FontWeight.read (value : String) : FontWeight :=
  let keyword := Text.trimmed value
  if keyword = "bold" ∨ keyword = "bolder" then .bold
  else match Text.readNatUpTo? 65535 keyword.toList with
    | some weight => if 600 ≤ weight then .bold else .normal
    | none => .normal

end BoxFlow
