import BoxFlow.Dom.Element
import BoxFlow.Selector.Error

/-!
# Attribute tests

The text between the brackets of a selector is a name, or a name, an operator
and a value. It is kept as written and read when a rule meets an element. A test
on an attribute that is missing or empty fails, whatever it asks for.
-/

namespace BoxFlow

/-- How the value of an attribute is compared. -/
inductive AttributeOperator where
  | exists
  | equals
  | contains
  | startsWith
  | endsWith
  | dashMatch
  | includes
deriving DecidableEq, Repr

namespace AttributeOperator

/-- The operator that a character in front of the equals sign selects. -/
def ofChar? : Char → Option AttributeOperator
  | '*' => some contains
  | '^' => some startsWith
  | '$' => some endsWith
  | '|' => some dashMatch
  | '~' => some includes
  | _ => none

end AttributeOperator

/-- An attribute test; the value is empty where only existence is asked for. -/
structure AttributeTest where
  name : String
  operator : AttributeOperator
  value : String
deriving DecidableEq, Repr

namespace AttributeTest

/-- The text between two quotes of one kind, if `cs` is such a text. -/
def between? (quote : Char) (cs : List Char) : Option (List Char) :=
  match cs with
  | c :: rest =>
    if c = quote then
      match rest.getLast? with
      | some d => if d = quote then some rest.dropLast else none
      | none => none
    else none
  | [] => none

/-- Takes one pair of double or else single quotes off. -/
def unquote (cs : List Char) : List Char :=
  match between? '"' cs with
  | some inner => inner
  | none => (between? '\'' cs).getD cs

/-- Splits an operator character off the end of the text before the equals sign. -/
def splitOperator (cs : List Char) : List Char × AttributeOperator :=
  match cs.getLast?.bind AttributeOperator.ofChar? with
  | some operator => (cs.dropLast, operator)
  | none => (cs, .equals)

/-- Reads the text between the brackets. It is refused when the name is blank, or
when nothing but blanks follows the first equals sign. -/
def compile (fragment : String) : Except SelectorError AttributeTest :=
  match Text.cutAt? '=' fragment.toList with
  | none =>
    let name := Text.trim fragment.toList
    if name.isEmpty then .error (.invalidAttribute fragment)
    else .ok ⟨.ofList name, .exists, ""⟩
  | some (before, after) =>
    let (name, operator) := splitOperator (Text.trimEnd before)
    let name := Text.trim name
    let value := Text.trim after
    if name.isEmpty || value.isEmpty then .error (.invalidAttribute fragment)
    else .ok ⟨.ofList name, operator, .ofList (unquote value)⟩

/-- Whether an attribute value that is not empty passes the comparison. -/
def accepts (operator : AttributeOperator) (expected actual : List Char) : Bool :=
  match operator with
  | .exists => true
  | .equals => actual == expected
  | .contains => Text.occursIn expected actual
  | .startsWith => expected.isPrefixOf actual
  | .endsWith => expected.isSuffixOf actual
  | .dashMatch => actual == expected || (expected ++ ['-']).isPrefixOf actual
  | .includes => (Text.pieces ' ' actual).contains expected

/-- Whether the element passes the test. -/
def holds (test : AttributeTest) (e : Element) : Bool :=
  let actual := e.attributeText test.name
  actual != "" && accepts test.operator test.value.toList actual.toList

end AttributeTest

end BoxFlow
