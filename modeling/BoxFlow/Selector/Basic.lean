import BoxFlow.Selector.PseudoClass
import BoxFlow.Text.Cut

/-!
# Selectors

A compound selector asks for a tag or starts with a star, and asks for ids,
classes, at most one attribute test, and pseudo-classes. The argument of a
functional pseudo-class is a compound selector in which no further argument
occurs, so selectors have two levels and the types say so.
-/

namespace BoxFlow

/-- A required pseudo-class; `α` is the type of arguments. -/
inductive PseudoClass (α : Type) where
  | plain (kind : PlainPseudo)
  | functional (kind : FunctionalPseudo) (argument : α)
deriving DecidableEq, Repr

/-- A compound selector whose pseudo-classes take arguments of type `α`. The tag
is empty when none is required, and the attribute test is kept as written. -/
structure Compound (α : Type) where
  tag : String := ""
  ids : List String := []
  classes : List String := []
  attributeTest : Option String := none
  universal : Bool := false
  pseudoClasses : List (PseudoClass α) := []
deriving DecidableEq, Repr

/-- A compound selector without arguments. -/
abbrev PlainSelector := Compound Empty

/-- A compound selector whose arguments are selectors without arguments. -/
abbrev Selector := Compound PlainSelector

namespace PseudoClass

variable {α : Type}

/-- The name of the pseudo-class. -/
def name : PseudoClass α → PseudoName
  | plain kind => .plain kind
  | functional kind _ => .functional kind

/-- The argument, if the pseudo-class has one. -/
def argument? : PseudoClass α → Option α
  | plain _ => none
  | functional _ argument => some argument

/-- The pseudo-class as written in a selector. -/
def print (printArgument : α → List Char) : PseudoClass α → List Char
  | plain kind => ':' :: kind.name.toList
  | functional kind argument => ':' :: kind.name.toList ++ '(' :: printArgument argument ++ [')']

end PseudoClass

namespace Compound

variable {α : Type}

/-- The text of a compound selector: star, tag, ids, classes, attribute test and
pseudo-classes, in this order. -/
def printWith (printArgument : α → List Char) (s : Compound α) : List Char :=
  (if s.universal then ['*'] else []) ++ s.tag.toList ++
    s.ids.flatMap (fun id => '#' :: id.toList) ++
    s.classes.flatMap (fun name => '.' :: name.toList) ++
    (match s.attributeTest with
      | none => []
      | some raw => '[' :: raw.toList ++ [']']) ++
    s.pseudoClasses.flatMap (PseudoClass.print printArgument)

end Compound

/-- The text of a selector without arguments. -/
def PlainSelector.print (s : PlainSelector) : List Char :=
  Compound.printWith nofun s

/-- The text of a selector. -/
def Selector.print (s : Selector) : List Char :=
  Compound.printWith PlainSelector.print s

end BoxFlow
