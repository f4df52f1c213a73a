import BoxFlow.Selector.Basic
import BoxFlow.Selector.Cursor

/-!
# Reading selectors

`Selector.parse` reads a whole text as one compound selector and names the first
thing that stands in its way. The argument of a functional pseudo-class ends at
the first closing parenthesis and holds no opening one; it is read by
`PlainSelector.parse`, for which no argument is acceptable.
-/

namespace BoxFlow

namespace PseudoClass

variable {α : Type}

/-- Reads the argument of a functional pseudo-class, with its parentheses. -/
def readArgument (parseArgument : List Char → Except SelectorError α)
    (kind : FunctionalPseudo) (c : Cursor) : Except SelectorError (PseudoClass α × Cursor) :=
  match c.expect .openParen with
  | (.error e, _) => .error e
  | (.ok _, c) =>
    match c.readRaw ')' with
    | (.error e, _) => .error e
    | (.ok none, _) => .error (.unterminatedArgument kind)
    | (.ok (some raw), c) =>
      if raw.contains '(' then .error .nestedArgument
      else match parseArgument raw with
        | .error e => .error (.invalidArgument kind e)
        | .ok argument => .ok (.functional kind argument, c)

/-- Reads a pseudo-class, after its colon. A second colon starts a
pseudo-element. -/
def read (parseArgument : List Char → Except SelectorError α) (c : Cursor) :
    Except SelectorError (PseudoClass α × Cursor) :=
  match c.expect .identifier with
  | (.error (.unexpectedToken _ .colon _), _) => .error .pseudoElement
  | (.error e, _) => .error e
  | (.ok token, c) =>
    let name := String.ofList token.raw
    match PseudoName.ofText? name with
    | none => .error (.unknownPseudoClass name)
    | some (.plain kind) => .ok (.plain kind, c)
    | some (.functional kind) => readArgument parseArgument kind c

end PseudoClass

namespace Compound

variable {α : Type}

/-- Reads the name after a hash or a dot. -/
def readName (c : Cursor) : Except SelectorError (String × Cursor) :=
  match c.expect .identifier with
  | (.error e, _) => .error e
  | (.ok token, c) => .ok (.ofList token.raw, c)

/-- Reads an attribute test, after its opening bracket. -/
def readAttribute (c : Cursor) : Except SelectorError (String × Cursor) :=
  match c.readRaw ']' with
  | (.error e, _) => .error e
  | (.ok none, _) => .error .unterminatedAttribute
  | (.ok (some raw), c) =>
    if Text.isAllBlank raw then .error (.invalidAttribute (.ofList raw))
    else .ok (.ofList raw, c)

/-- Adds the part that starts with `token` to a selector; `first` holds for the
first token of the text. -/
def addPart (parseArgument : List Char → Except SelectorError α) (first : Bool)
    (s : Compound α) (token : Token) (c : Cursor) : Except SelectorError (Compound α × Cursor) :=
  match token.kind with
  | .identifier =>
    if first then .ok ({ s with tag := .ofList token.raw }, c)
    else .error (.strayToken .identifier (.ofList token.raw))
  | .star => if first then .ok ({ s with universal := true }, c) else .error .misplacedStar
  | .hash => (readName c).map fun (name, c) => ({ s with ids := s.ids ++ [name] }, c)
  | .dot => (readName c).map fun (name, c) => ({ s with classes := s.classes ++ [name] }, c)
  | .openBracket =>
    if s.attributeTest.isSome then .error .secondAttribute
    else (readAttribute c).map fun (raw, c) => ({ s with attributeTest := some raw }, c)
  | .colon => (PseudoClass.read parseArgument c).map fun (pseudo, c) =>
    ({ s with pseudoClasses := s.pseudoClasses ++ [pseudo] }, c)
  | kind =>
    if kind.isCombinator then .error (.unsupportedCombinator kind)
    else .error (.strayToken kind (.ofList token.raw))

/-- Reads parts up to the end of the text, at most `limit` of them. -/
def readParts (parseArgument : List Char → Except SelectorError α) :
    Nat → Bool → Compound α → Cursor → Except SelectorError (Compound α)
  | 0, _, s, _ => .ok s
  | limit + 1, first, s, c =>
    match c.next with
    | (.error e, _) => .error e
    | (.ok none, _) => .ok s
    | (.ok (some token), c) =>
      match addPart parseArgument first s token c with
      | .error e => .error e
      | .ok (s, c) => readParts parseArgument limit false s c

/-- Reads a whole text. Every part takes at least one character, so the length of
the text bounds their number. -/
def parseWith (parseArgument : List Char → Except SelectorError α) (text : List Char) :
    Except SelectorError (Compound α) :=
  if text.isEmpty then .error .empty
  else readParts parseArgument (text.length + 1) true {} (.start text)

end Compound

/-- Reads a selector without arguments. -/
def PlainSelector.parse (text : List Char) : Except SelectorError PlainSelector :=
  Compound.parseWith (fun _ => .error .nestedArgument) text

/-- Reads a selector. -/
def Selector.parse (text : List Char) : Except SelectorError Selector :=
  Compound.parseWith PlainSelector.parse text

end BoxFlow
