/-!
# Overflow

Some numbers are computed in a fixed width. Where the result of an operation does
not fit, there is none, and whatever asked for it fails with the text for that
operation.
-/

namespace BoxFlow

/-- An operation whose result does not fit its width. -/
inductive Overflow where
  | addition
  | multiplication
deriving DecidableEq, Repr

/-- The text of the failure. -/
def Overflow.message : Overflow → String
  | addition => "attempt to add with overflow"
  | multiplication => "attempt to multiply with overflow"

end BoxFlow
