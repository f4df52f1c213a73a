import BoxFlow.Cascade.Visited
import BoxFlow.Dom.Tree
import BoxFlow.Selector.Attribute
import BoxFlow.Selector.Basic
import BoxFlow.Warning

/-!
# Specificity

Matching and weighing are one number: a selector scores the sum of the weights
of its parts against an element for which all of them hold, and `noMatch`
otherwise. Only a positive score counts as a match, so a selector that is a
single pseudo-class, with the base of -1, never matches by itself.

A score is counted in 32 bits: the parts are asked for in turn, and each one that
holds adds its weight to the total. `Compound.score32?` counts in this way, and
gives nothing if a sum does not fit. What it gives is the score that is defined
here without a bound.
-/

namespace BoxFlow

/-- A node under test, with all that selectors can see of it. -/
structure Subject where
  tree : Tree
  id : NodeId
  visited : Visited

namespace Subject

/-- The elements among the node and its siblings. A node without a parent takes
the place of its own parent. -/
def siblings (s : Subject) : List NodeId :=
  s.tree.elementChildren ((s.tree.parent? s.id).getD s.id)

/-- The siblings that have the given tag. -/
def siblingsOfTag (s : Subject) (tag : String) : List NodeId :=
  s.siblings.filter fun sibling => s.tree.isTag sibling tag

/-- The nearest language given on the node or above it. -/
def language? (s : Subject) : Option String :=
  (s.id :: s.tree.ancestors s.id).findSome? fun id =>
    (s.tree.element? id).bind (·.attribute? "lang")

/-- Whether the language of the node is `range` or one of its regional forms,
ASCII case ignored. -/
def speaks (s : Subject) (range : String) : Bool :=
  match s.language? with
  | none => false
  | some language =>
    let language := language.toList.map Char.toLower
    let range := range.toList.map Char.toLower
    !range.isEmpty && (language == range || (range ++ ['-']).isPrefixOf language)

end Subject

/-- The tags of elements that can be disabled. -/
def formControls : List String :=
  ["button", "fieldset", "input", "optgroup", "option", "select", "textarea"]

/-- Whether the element can be required. -/
def Element.canBeRequired (e : Element) : Bool :=
  ["input", "select", "textarea"].contains e.tag

/-- Whether a user could change the content of the element. -/
def Element.isEditable (e : Element) : Bool :=
  (["input", "textarea"].contains e.tag && !e.hasAttribute "readonly" &&
      !e.hasAttribute "disabled") ||
    (e.attribute? "contenteditable").any fun value =>
      value == "" || Text.sameIgnoringCase value "true"

/-- Whether a pseudo-class without an argument holds. Pointer, focus, fragment
and validation state do not exist here, so what asks for them fails. -/
def PlainPseudo.holds (kind : PlainPseudo) (s : Subject) (e : Element) : Bool :=
  match kind with
  | link => (e.attribute? "href").any fun href => !s.visited.contains href
  | visited => (e.attribute? "href").any fun href => s.visited.contains href
  | root => s.tree.parent? s.id == some Tree.root
  | empty => !s.tree.hasTextBelow s.id
  | firstChild => s.siblings.head? == some s.id
  | lastChild => s.siblings.getLast? == some s.id
  | onlyChild => s.siblings.length == 1
  | firstOfType => (s.siblingsOfTag e.tag).head? == some s.id
  | lastOfType => (s.siblingsOfTag e.tag).getLast? == some s.id
  | onlyOfType => (s.siblingsOfTag e.tag).length == 1
  | checked => e.hasAttribute "checked" || (e.tag == "option" && e.hasAttribute "selected")
  | disabled => formControls.contains e.tag && e.hasAttribute "disabled"
  | enabled => formControls.contains e.tag && !e.hasAttribute "disabled"
  | required => e.canBeRequired && e.hasAttribute "required"
  | optional => e.canBeRequired && !e.hasAttribute "required"
  | readWrite => e.isEditable
  | readOnly => !e.isEditable
  | active | focus | hover | inRange | invalid | outOfRange | target | valid => false

/-- Score of a selector that does not apply. -/
def noMatch : Int := -1000

namespace Compound

variable {α : Type}

/-- Sum of the weights of all parts. -/
def weight (c : Compound α) : Int :=
  (if c.universal then 1 else -1) + 100 * (c.ids.length : Int) +
    (if c.tag = "" then 0 else 2) + 10 * (c.classes.length : Int) +
    (if c.attributeTest.isSome then 10 else 0) + (c.pseudoClasses.length : Int)

/-- Whether ids, tag and classes are those of the element. -/
def namesHold (c : Compound α) (e : Element) : Bool :=
  c.ids.all (fun id => e.id == id) &&
    (c.tag == "" || Text.sameIgnoringCase c.tag e.tag) &&
    c.classes.all e.hasClass

/-- Whether the attribute test, if there is one, can be read and passes. -/
def attributeHolds (c : Compound α) (e : Element) : Bool :=
  match c.attributeTest with
  | none => true
  | some fragment =>
    match AttributeTest.compile fragment with
    | .ok test => test.holds e
    | .error _ => false

/-- Whether a pseudo-class holds, given when functional ones do. -/
def pseudoHolds (functionHolds : FunctionalPseudo → α → Bool) (s : Subject) (e : Element) :
    PseudoClass α → Bool
  | .plain kind => kind.holds s e
  | .functional kind argument => functionHolds kind argument

/-- The weight if every part holds, else `noMatch`. -/
def scoreWith (functionHolds : FunctionalPseudo → α → Bool) (c : Compound α) (s : Subject) :
    Int :=
  match s.tree.element? s.id with
  | none => noMatch
  | some e =>
    if c.namesHold e && c.attributeHolds e && c.pseudoClasses.all (pseudoHolds functionHolds s e)
    then c.weight else noMatch

/-- What matching has to say about the pseudo-classes: it asks for them in turn,
up to the first that fails. -/
def pseudoWarnings (holds : PseudoClass α → Bool) (warnings : PseudoClass α → List Warning) :
    List (PseudoClass α) → List Warning
  | [] => []
  | p :: ps => warnings p ++ if holds p then pseudoWarnings holds warnings ps else []

/-- The warnings of matching: an attribute test that cannot be read is reported
once everything asked for before it holds. -/
def warningsWith (functionHolds : FunctionalPseudo → α → Bool)
    (functionWarnings : FunctionalPseudo → α → List Warning) (c : Compound α) (s : Subject) :
    List Warning :=
  match s.tree.element? s.id with
  | none => []
  | some e =>
    if c.namesHold e then
      match c.attributeTest.map AttributeTest.compile with
      | some (.error cause) => [.selector cause.message]
      | _ =>
        if c.attributeHolds e then
          pseudoWarnings (pseudoHolds functionHolds s e)
            (fun p => match p with
              | .plain _ => []
              | .functional kind argument => functionWarnings kind argument)
            c.pseudoClasses
        else []
    else []

end Compound

/-- Score of a selector without arguments. -/
def PlainSelector.specificity (c : PlainSelector) (s : Subject) : Int :=
  c.scoreWith nofun s

/-- Whether a functional pseudo-class holds: a negation when its argument scores
nothing positive, a language when the argument's tag names it. Counting classes
never hold. -/
def FunctionalPseudo.holds (s : Subject) (kind : FunctionalPseudo) (argument : PlainSelector) :
    Bool :=
  match kind with
  | negation => argument.specificity s ≤ 0
  | lang => s.speaks argument.tag
  | nthChild | nthLastChild | nthLastOfType | nthOfType => false

/-- Score of a selector against the node under test. -/
def Selector.specificity (c : Selector) (s : Subject) : Int :=
  c.scoreWith (FunctionalPseudo.holds s) s

/-! ## Counting in 32 bits -/

/-- One part of a selector against an element: what it adds to the score, and
whether it holds, as far as that can be counted. -/
structure Check where
  weight : Nat
  passes? : Option Bool

namespace Check

/-- The sum of two numbers, if it fits in 32 bits. -/
def add32? (m n : Int) : Option Int :=
  if -2147483648 ≤ m + n ∧ m + n ≤ 2147483647 then some (m + n) else none

/-- Makes the checks in turn, with the total so far, up to the first that fails. -/
def tally32? : Int → List Check → Option Int
  | total, [] => some total
  | total, check :: checks =>
    match check.passes? with
    | none => none
    | some false => some noMatch
    | some true => (add32? total check.weight).bind fun sum => tally32? sum checks

end Check

namespace Compound

variable {α : Type}

/-- What the score starts with. -/
def base (c : Compound α) : Int := if c.universal then 1 else -1

/-- Whether the attribute test written as `raw` can be read and passes. -/
def fragmentHolds (e : Element) (raw : String) : Bool :=
  match AttributeTest.compile raw with
  | .ok test => test.holds e
  | .error _ => false

/-- Whether a pseudo-class holds, given when functional ones do, as far as that can
be counted. -/
def pseudoHolds? (functionHolds? : FunctionalPseudo → α → Option Bool) (s : Subject)
    (e : Element) : PseudoClass α → Option Bool
  | .plain kind => some (kind.holds s e)
  | .functional kind argument => functionHolds? kind argument

/-- The parts of a selector against an element, in the order in which they are
asked for. -/
def checks (functionHolds? : FunctionalPseudo → α → Option Bool) (c : Compound α) (s : Subject)
    (e : Element) : List Check :=
  c.ids.map (fun id => ⟨100, some (e.id == id)⟩) ++
    (if c.tag = "" then [] else [⟨2, some (Text.sameIgnoringCase c.tag e.tag)⟩]) ++
    c.classes.map (fun name => ⟨10, some (e.hasClass name)⟩) ++
    c.attributeTest.toList.map (fun raw => ⟨10, some (fragmentHolds e raw)⟩) ++
    c.pseudoClasses.map fun p => ⟨1, pseudoHolds? functionHolds? s e p⟩

/-- The score of a selector, counted in 32 bits. -/
def score32? (functionHolds? : FunctionalPseudo → α → Option Bool) (c : Compound α)
    (s : Subject) : Option Int :=
  match s.tree.element? s.id with
  | none => some noMatch
  | some e => Check.tally32? c.base (c.checks functionHolds? s e)

end Compound

/-- Score of a selector without arguments, counted in 32 bits. -/
def PlainSelector.specificity32? (c : PlainSelector) (s : Subject) : Option Int :=
  c.score32? nofun s

/-- Whether a functional pseudo-class holds, if the score of its argument can be
counted where it is asked for. -/
def FunctionalPseudo.holds32? (s : Subject) (kind : FunctionalPseudo)
    (argument : PlainSelector) : Option Bool :=
  match kind with
  | negation => (argument.specificity32? s).map fun score => decide (score ≤ 0)
  | lang | nthChild | nthLastChild | nthLastOfType | nthOfType => some (kind.holds s argument)

/-- Score of a selector against the node under test, counted in 32 bits. -/
def Selector.specificity32? (c : Selector) (s : Subject) : Option Int :=
  c.score32? (FunctionalPseudo.holds32? s) s

/-! ## What is reported -/

/-- What scoring the argument of a functional pseudo-class reports. -/
def FunctionalPseudo.warnings (s : Subject) (kind : FunctionalPseudo) (argument : PlainSelector) :
    List Warning :=
  match kind with
  | negation => argument.warningsWith nofun nofun s
  | _ => []

/-- What scoring a selector reports. -/
def Selector.warnings (c : Selector) (s : Subject) : List Warning :=
  c.warningsWith (FunctionalPseudo.holds s) (FunctionalPseudo.warnings s) s

end BoxFlow
