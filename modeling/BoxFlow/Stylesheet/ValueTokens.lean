import BoxFlow.Text.Blank

/-!
# Tokens of a value

A value consists of tokens separated by blank characters. What stands in
parentheses belongs to one token, blanks included.
-/

namespace BoxFlow.Value

/-- Nesting depth after a character. A closing parenthesis that closes nothing
leaves the depth at zero. -/
def depthAfter (depth : Nat) (c : Char) : Nat :=
  if c = '(' then depth + 1 else if c = ')' then depth - 1 else depth

/-- The tokens of the rest of a value, after `depth` open parentheses and inside
the token whose characters so far, last one first, are `current`. -/
def tokensFrom (depth : Nat) (current : List Char) : List Char → List (List Char)
  | [] => if current.isEmpty then [] else [current.reverse]
  | c :: cs =>
    if Text.isBlank c && depth == 0 then
      if current.isEmpty then tokensFrom 0 [] cs
      else current.reverse :: tokensFrom 0 [] cs
    else tokensFrom (depthAfter depth c) (c :: current) cs

/-- The tokens of a value. -/
def tokens (value : String) : List String :=
  (tokensFrom 0 [] value.toList).map String.ofList

end BoxFlow.Value
