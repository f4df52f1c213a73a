/-!
# Pseudo-class names

Pseudo-classes come in two sorts: plain ones, and functional ones that take an
argument in parentheses. Names are matched exactly.
-/

namespace BoxFlow

/-- Pseudo-classes without an argument. -/
inductive PlainPseudo where
  | active | checked | disabled | empty | enabled | firstChild | firstOfType | focus | hover
  | inRange | invalid | lastChild | lastOfType | link | onlyOfType | onlyChild | optional
  | outOfRange | readOnly | readWrite | required | root | target | valid | visited
deriving DecidableEq, Repr

/-- Pseudo-classes with an argument. -/
inductive FunctionalPseudo where
  | lang | negation | nthChild | nthLastChild | nthLastOfType | nthOfType
deriving DecidableEq, Repr

namespace PlainPseudo

/-- All of them. -/
def all : List PlainPseudo :=
  [active, checked, disabled, empty, enabled, firstChild, firstOfType, focus, hover, inRange,
   invalid, lastChild, lastOfType, link, onlyOfType, onlyChild, optional, outOfRange, readOnly,
   readWrite, required, root, target, valid, visited]

/-- The name as written in a selector. -/
def name : PlainPseudo → String
  | active => "active"
  | checked => "checked"
  | disabled => "disabled"
  | empty => "empty"
  | enabled => "enabled"
  | firstChild => "first-child"
  | firstOfType => "first-of-type"
  | focus => "focus"
  | hover => "hover"
  | inRange => "in-range"
  | invalid => "invalid"
  | lastChild => "last-child"
  | lastOfType => "last-of-type"
  | link => "link"
  | onlyOfType => "only-of-type"
  | onlyChild => "only-child"
  | optional => "optional"
  | outOfRange => "out-of-range"
  | readOnly => "read-only"
  | readWrite => "read-write"
  | required => "required"
  | root => "root"
  | target => "target"
  | valid => "valid"
  | visited => "visited"

end PlainPseudo

namespace FunctionalPseudo

/-- All of them. -/
def all : List FunctionalPseudo :=
  [lang, negation, nthChild, nthLastChild, nthLastOfType, nthOfType]

/-- The name as written in a selector. -/
def name : FunctionalPseudo → String
  | lang => "lang"
  | negation => "not"
  | nthChild => "nth-child"
  | nthLastChild => "nth-last-child"
  | nthLastOfType => "nth-last-of-type"
  | nthOfType => "nth-of-type"

end FunctionalPseudo

/-- A known pseudo-class name, of either sort. -/
inductive PseudoName where
  | plain (kind : PlainPseudo)
  | functional (kind : FunctionalPseudo)
deriving DecidableEq, Repr

namespace PseudoName

/-- The name as written in a selector. -/
def text : PseudoName → String
  | plain kind => kind.name
  | functional kind => kind.name

/-- The pseudo-class called `name`. -/
def ofText? (name : String) : Option PseudoName :=
  match PlainPseudo.all.find? (·.name == name) with
  | some kind => some (plain kind)
  | none => (FunctionalPseudo.all.find? (·.name == name)).map functional

end PseudoName

end BoxFlow
