/-!
# Selector tokens

A selector text consists of identifiers and single punctuation characters. Line
feeds, carriage returns and tabs stand outside the alphabet; a plain space is
the descendant combinator.
-/

namespace BoxFlow

/-- What a token is. -/
inductive TokenKind where
  | identifier
  | star
  | hash
  | dot
  | openBracket
  | closeBracket
  | colon
  | openParen
  | closeParen
  | descendant
  | child
  | nextSibling
  | laterSibling
  | namespaceBar
deriving DecidableEq, Repr

namespace TokenKind

/-- The kind a punctuation character forms on its own. -/
def ofChar? : Char → Option TokenKind
  | '*' => some star
  | '#' => some hash
  | '.' => some dot
  | '[' => some openBracket
  | ']' => some closeBracket
  | ':' => some colon
  | '(' => some openParen
  | ')' => some closeParen
  | ' ' => some descendant
  | '>' => some child
  | '+' => some nextSibling
  | '~' => some laterSibling
  | '|' => some namespaceBar
  | _ => none

/-- Whether the token joins two compound selectors. -/
def isCombinator : TokenKind → Bool
  | descendant | child | nextSibling | laterSibling => true
  | _ => false

/-- How messages name the kind. -/
def name : TokenKind → String
  | identifier => "identifier"
  | star => "'*'"
  | hash => "'#'"
  | dot => "'.'"
  | openBracket => "'['"
  | closeBracket => "']'"
  | colon => "':'"
  | openParen => "'('"
  | closeParen => "')'"
  | descendant => "descendant combinator"
  | child => "'>'"
  | nextSibling => "'+'"
  | laterSibling => "'~'"
  | namespaceBar => "'|'"

end TokenKind

/-- A token with its text. -/
structure Token where
  kind : TokenKind
  raw : List Char
deriving DecidableEq, Repr

namespace Token

/-- The characters that no selector contains. -/
def isForbidden (c : Char) : Bool :=
  c == '\n' || c == '\r' || c == '\t'

/-- The characters an identifier consists of. -/
def isNameChar (c : Char) : Bool :=
  (TokenKind.ofChar? c).isNone && !isForbidden c

end Token

end BoxFlow
