import BoxFlow.Selector.Error

/-!
# Reading a selector text

A cursor is a position in a selector text. It reads the next token, a token of a
required kind, or raw text up to a closing character. Every operation returns
the cursor after it, also when it fails, so that reading can go on from there.
-/

namespace BoxFlow

/-- A position in a selector text: the bytes before it, the text after it, and
the token read last. -/
structure Cursor where
  position : Nat
  rest : List Char
  last : Option Token := none
deriving DecidableEq, Repr

namespace Cursor

/-- Number of bytes in the UTF-8 form of a text. -/
def byteLength : List Char → Nat
  | [] => 0
  | c :: cs => c.utf8Size + byteLength cs

/-- The cursor at the start of a text. -/
def start (text : List Char) : Cursor := ⟨0, text, none⟩

/-- Moves past a token. -/
def accept (c : Cursor) (kind : TokenKind) (raw rest : List Char) : Token × Cursor :=
  let token : Token := ⟨kind, raw⟩
  (token, ⟨c.position + byteLength raw, rest, some token⟩)

/-- Reads the next token; `none` at the end. A forbidden character and a digit at
the start of an identifier are errors, and neither moves the cursor. -/
def next (c : Cursor) : Except SelectorError (Option Token) × Cursor :=
  match c.rest with
  | [] => (.ok none, c)
  | ch :: rest =>
    if Token.isForbidden ch then (.error (.invalidCharacter c.position ch), c)
    else match TokenKind.ofChar? ch with
      | some kind =>
        let (token, c) := c.accept kind [ch] rest
        (.ok (some token), c)
      | none =>
        if ch.isDigit then (.error (.invalidCharacter c.position ch), c)
        else
          let (token, c) := c.accept .identifier (c.rest.takeWhile Token.isNameChar)
            (c.rest.dropWhile Token.isNameChar)
          (.ok (some token), c)

/-- Text of the token read last, empty at the start. -/
def lastText (c : Cursor) : String :=
  ((c.last.map fun token => String.ofList token.raw)).getD ""

/-- Reads a token of the given kind. A token of another kind is an error, but
counts as read. -/
def expect (c : Cursor) (kind : TokenKind) : Except SelectorError Token × Cursor :=
  match c.next with
  | (.error e, after) => (.error e, after)
  | (.ok none, after) => (.error (.unexpectedEnd kind c.lastText), after)
  | (.ok (some token), after) =>
    if token.kind = kind then (.ok token, after)
    else (.error (.unexpectedToken kind token.kind c.lastText), after)

/-- Reads raw text up to `stop` and moves past it; `none` when the text ends
first. A forbidden character is an error, and the cursor stays in front of it. -/
def readRaw (c : Cursor) (stop : Char) : Except SelectorError (Option (List Char)) × Cursor :=
  let goesOn (ch : Char) : Bool := !Token.isForbidden ch && ch != stop
  let raw := c.rest.takeWhile goesOn
  let position := c.position + byteLength raw
  match c.rest.dropWhile goesOn with
  | [] => (.ok none, { c with position := position, rest := [] })
  | ch :: rest =>
    if Token.isForbidden ch then
      (.error (.invalidCharacter position ch), { c with position := position, rest := ch :: rest })
    else
      let kind := (TokenKind.ofChar? ch).getD .identifier
      (.ok (some raw), ⟨position + ch.utf8Size, rest, some ⟨kind, [ch]⟩⟩)

end Cursor

end BoxFlow
