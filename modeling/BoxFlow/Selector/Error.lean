import BoxFlow.Selector.Token
import BoxFlow.Selector.PseudoClass
import BoxFlow.Text.Quoted

/-!
# Why a selector is refused

Each cause keeps what its message names. Positions count bytes of the text's
UTF-8 form.
-/

namespace BoxFlow

/-- The cause for which a selector or an attribute test is refused. -/
inductive SelectorError where
  | invalidCharacter (position : Nat) (found : Char)
  | unexpectedEnd (expected : TokenKind) (after : String)
  | unexpectedToken (expected found : TokenKind) (after : String)
  | strayToken (kind : TokenKind) (raw : String)
  | misplacedStar
  | unsupportedCombinator (kind : TokenKind)
  | pseudoElement
  | unknownPseudoClass (name : String)
  | secondAttribute
  | unterminatedAttribute
  | unterminatedArgument (kind : FunctionalPseudo)
  | nestedArgument
  | invalidArgument (kind : FunctionalPseudo) (cause : SelectorError)
  | invalidAttribute (fragment : String)
  | empty
deriving DecidableEq, Repr

namespace SelectorError

/-- The cause in words. -/
def message : SelectorError → String
  | invalidCharacter position found =>
    "invalid character " ++ Text.quotedChar found ++ " at byte " ++ toString position
  | unexpectedEnd expected after =>
    "unexpected end of selector: expected " ++ expected.name ++ " after '" ++ after ++ "'"
  | unexpectedToken expected found after =>
    "expected " ++ expected.name ++ " after '" ++ after ++ "', found " ++ found.name
  | strayToken kind raw => "unexpected " ++ kind.name ++ " '" ++ raw ++ "'"
  | misplacedStar => "'*' is only allowed at the start of a selector"
  | unsupportedCombinator kind => kind.name ++ " selectors are unimplemented"
  | pseudoElement => "pseudo elements are unimplemented"
  | unknownPseudoClass name => "unknown pseudo-class ':" ++ name ++ "'"
  | secondAttribute => "only one attribute selector is supported"
  | unterminatedAttribute => "unterminated attribute selector"
  | unterminatedArgument kind => "unterminated argument to ':" ++ kind.name ++ "'"
  | nestedArgument => "nested sub-selectors are unimplemented"
  | invalidArgument kind cause =>
    "invalid argument to ':" ++ kind.name ++ "': " ++ cause.message
  | invalidAttribute fragment => "invalid attribute selector '[" ++ fragment ++ "]'"
  | empty => "empty selector"

end SelectorError

end BoxFlow
