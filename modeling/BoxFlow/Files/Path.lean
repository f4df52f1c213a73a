import BoxFlow.Text.Cut

/-!
# Paths

A path is a text in which slashes separate names. Several texts name the same
way: empty names and dots say nothing, except a dot at the very start. Two paths
count as equal when their ways are.
-/

namespace BoxFlow

/-- The way that a path names: from the root or not, and the names to follow. -/
structure Way where
  fromRoot : Bool
  names : List String
deriving DecidableEq, Repr

namespace Path

/-- The texts between the slashes. -/
def pieces (path : String) : List String :=
  (Text.pieces '/' path.toList).map String.ofList

/-- Whether a path starts at the root. -/
def isAbsolute (path : String) : Bool := path.toList.head? == some '/'

/-- Whether the piece at a position takes part in the way. -/
def isNamed (piece : String) (position : Nat) : Bool :=
  piece != "" && (piece != "." || position == 0)

/-- The way of a path. -/
def way (path : String) : Way where
  fromRoot := isAbsolute path
  names := ((pieces path).zipIdx.filter fun (piece, i) => isNamed piece i).map Prod.fst

/-- A path below a folder. An absolute path stays as it is. -/
def join (folder path : String) : String :=
  if isAbsolute path then path
  else if folder = "" ∨ folder.toList.getLast? = some '/' then folder ++ path
  else folder ++ "/" ++ path

/-- The folder of what a path names: the path without its last name. A path
without names has none. -/
def folder? (path : String) : Option String :=
  let unnamed := fun (entry : String × Nat) => !isNamed entry.1 entry.2
  match (pieces path).zipIdx.reverse.dropWhile unnamed with
  | [] => none
  | _ :: before =>
    match before.dropWhile unnamed with
    | [] => some (if isAbsolute path then "/" else "")
    | kept => some (Text.joinWith "/" (kept.reverse.map Prod.fst))

/-- What follows the last dot of the last name, unless the name starts with it. -/
def extension? (path : String) : Option String := do
  let name ← (way path).names.getLast?
  let cs := name.toList
  let after := Text.afterLast '.' cs
  if name = ".." ∨ after.length + 1 ≥ cs.length then none else some (.ofList after)

/-- Whether a path can only name a folder. -/
def endsInFolder (path : String) : Bool :=
  match (pieces path).getLast? with
  | some piece => piece == "" || piece == "." || piece == ".."
  | none => true

end Path

end BoxFlow
