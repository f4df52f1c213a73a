import BoxFlow.Selector.Basic
import BoxFlow.Stylesheet.Block

/-!
# Stylesheets

A stylesheet holds rules in the order in which their selector texts were first
seen. A selector text has one rule; declaring more under it extends the block of
that rule in place.
-/

namespace BoxFlow

/-- A selector as written, its meaning, and what it declares. -/
structure Rule where
  text : String
  selector : Selector
  declarations : Block := .empty
deriving DecidableEq, Repr

/-- Rules with distinct texts, in first-seen order. -/
structure Stylesheet where
  rules : List Rule := []
deriving DecidableEq, Repr

namespace Stylesheet

/-- The sheet without rules. -/
def empty : Stylesheet := {}

/-- Position of the rule for a selector text. -/
def index? (sheet : Stylesheet) (text : String) : Option Nat :=
  sheet.rules.findIdx? fun rule => rule.text == text

/-- What is declared under a selector text. -/
def get? (sheet : Stylesheet) (text : String) : Option Block :=
  (sheet.rules.find? fun rule => rule.text == text).map Rule.declarations

/-- Number of rules. -/
def size (sheet : Stylesheet) : Nat := sheet.rules.length

/-- Whether there is no rule. -/
def isEmpty (sheet : Stylesheet) : Bool := sheet.rules.isEmpty

/-- Extends the rule for a selector text, or adds one at the end. -/
def declareIn (text : String) (selector : Selector) (declarations : Block) :
    List Rule → List Rule
  | [] => [⟨text, selector, Block.empty.extend declarations⟩]
  | rule :: rules =>
    if rule.text = text then
      { rule with declarations := rule.declarations.extend declarations } :: rules
    else rule :: declareIn text selector declarations rules

/-- Declares a block under a selector. -/
def declare (sheet : Stylesheet) (text : String) (selector : Selector) (declarations : Block) :
    Stylesheet :=
  ⟨declareIn text selector declarations sheet.rules⟩

/-- Declares everything that another sheet declares, in its order. -/
def merge (sheet other : Stylesheet) : Stylesheet :=
  other.rules.foldl (fun sheet rule => sheet.declare rule.text rule.selector rule.declarations)
    sheet

end Stylesheet

end BoxFlow
