import BoxFlow.Text.Cut

/-!
# Structure of a stylesheet source

A source without its comments is a sequence of blocks in braces, each after the
text that introduces it. A block ends at the brace that balances its opening
one. Declarations are the pieces between semicolons, cut at the first colon.
-/

namespace BoxFlow.Source

/-- The characters outside comments, reading on from inside a comment when
`inComment` holds. -/
def uncommentedFrom : Bool → List Char → List Char
  | _, [] => []
  | false, '/' :: '*' :: cs => uncommentedFrom true cs
  | false, c :: cs => c :: uncommentedFrom false cs
  | true, '*' :: '/' :: cs => uncommentedFrom false cs
  | true, _ :: cs => uncommentedFrom true cs

/-- A source without its comments. A comment that is not closed runs to the end. -/
def withoutComments (cs : List Char) : List Char :=
  uncommentedFrom false cs

/-- A block in braces with the text in front of it. -/
structure RawBlock where
  introduction : List Char
  body : List Char
deriving DecidableEq, Repr

/-- What a source without comments consists of: its blocks, and whether the last
one is not closed. -/
structure Outline where
  blocks : List RawBlock
  isOpen : Bool
deriving DecidableEq, Repr

/-- Where in a source a character stands: between two blocks, or within one with
`depth` inner blocks open. The texts read so far have their last character
first. -/
inductive Place where
  | between (introduction : List Char)
  | within (introduction body : List Char) (depth : Nat)
deriving DecidableEq, Repr

/-- The outline of the rest of a source. -/
def outlineFrom : Place → List Char → Outline
  | .between _, [] => ⟨[], false⟩
  | .within _ _ _, [] => ⟨[], true⟩
  | .between introduction, c :: cs =>
    if c = '\x7b' then outlineFrom (.within introduction [] 0) cs
    else outlineFrom (.between (c :: introduction)) cs
  | .within introduction body depth, c :: cs =>
    if c = '\x7d' then
      match depth with
      | 0 =>
        let more := outlineFrom (.between []) cs
        ⟨⟨introduction.reverse, body.reverse⟩ :: more.blocks, more.isOpen⟩
      | depth + 1 => outlineFrom (.within introduction (c :: body) depth) cs
    else
      outlineFrom (.within introduction (c :: body) (if c = '\x7b' then depth + 1 else depth)) cs

/-- The outline of a source. -/
def outline (source : List Char) : Outline :=
  outlineFrom (.between []) (withoutComments source)

/-- The selector group of a block: what follows the last semicolon in front of
it, trimmed. Statements that end in a semicolon are passed over. -/
def RawBlock.group (block : RawBlock) : List Char :=
  Text.trim (Text.afterLast ';' block.introduction)

/-- A name and a value around the first colon of a piece, both trimmed. Pieces
without a colon or without a name declare nothing. -/
def declaration? (piece : List Char) : Option (String × String) :=
  match Text.cutAt? ':' piece with
  | none => none
  | some (name, value) =>
    let name := Text.trim name
    if name.isEmpty then none else some (.ofList name, .ofList (Text.trim value))

/-- The declarations of a block body. -/
def declarations (body : List Char) : List (String × String) :=
  (Text.pieces ';' body).filterMap declaration?

/-- Pieces of a selector group between the commas outside parentheses; `current`
holds the characters of the piece so far, last one first. -/
def groupPiecesFrom (depth : Nat) (current : List Char) : List Char → List (List Char)
  | [] => [current.reverse]
  | c :: cs =>
    if c = ',' && depth == 0 then current.reverse :: groupPiecesFrom 0 [] cs
    else
      let depth := if c = '(' then depth + 1 else if c = ')' then depth - 1 else depth
      groupPiecesFrom depth (c :: current) cs

/-- The selectors of a group as written, trimmed. -/
def groupPieces (group : List Char) : List (List Char) :=
  (groupPiecesFrom 0 [] group).map Text.trim

end BoxFlow.Source
