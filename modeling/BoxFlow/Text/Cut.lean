import BoxFlow.Text.Blank

/-!
# Cutting text apart

Cuts at the first occurrence of a character, at every occurrence, and into the
non-empty runs between separators. All of them work on lists of characters, so
that no cut can fall inside a character.
-/

namespace BoxFlow.Text

/-- The text before and after the first `sep`, if there is one. -/
def cutAt? (sep : Char) (cs : List Char) : Option (List Char × List Char) :=
  match cs.dropWhile (· != sep) with
  | [] => none
  | _ :: after => some (cs.takeWhile (· != sep), after)

/-- The text before the first `sep`, or all of it. -/
def upTo (sep : Char) (cs : List Char) : List Char :=
  cs.takeWhile (· != sep)

/-- The text after the last `sep`, or all of it. -/
def afterLast (sep : Char) (cs : List Char) : List Char :=
  (cs.reverse.takeWhile (· != sep)).reverse

/-- The pieces between the occurrences of `sep`, empty ones included. -/
def pieces (sep : Char) (cs : List Char) : List (List Char) :=
  cs.splitOnP (· == sep)

/-- The maximal non-empty runs of characters that are not separators. -/
def words (isSep : Char → Bool) (cs : List Char) : List (List Char) :=
  (cs.splitOnP isSep).filter fun word => !word.isEmpty

/-- Whether `part` occurs somewhere inside `cs`. -/
def occursIn (part : List Char) : List Char → Bool
  | [] => part.isEmpty
  | c :: cs => part.isPrefixOf (c :: cs) || occursIn part cs

/-- `cs` without a leading `c`, or all of `cs` when it starts otherwise. -/
def dropLeading (c : Char) : List Char → List Char
  | [] => []
  | d :: cs => if d = c then cs else d :: cs

/-- Text joined with `sep` between neighbours. -/
def joinWith (sep : String) (parts : List String) : String :=
  .ofList (sep.toList.intercalate (parts.map String.toList))

end BoxFlow.Text
