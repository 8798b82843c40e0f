import Ferrite.Plan.Logical
import Ferrite.Sql.Lexer

/-!
# The parser's position

The primitives of `ferrite-sql/src/parser.rs`: looking at tokens, taking them, and
reading names, lists and types.
-/

namespace Ferrite

open Logical Sql

/-- The tokens left, and the offset of the last token there was. -/
structure Parser where
  rest : List SpannedToken
  last : Nat

instance : Input Parser where
  le after before := after.rest <:+ before.rest ∧ after.last = before.last
  le_refl parser := ⟨List.suffix_refl parser.rest, rfl⟩
  le_trans _ _ _ first second := ⟨first.1.trans second.1, first.2.trans second.2⟩
  size parser := parser.rest.length
  size_mono later := later.1.length_le

abbrev Parse := Reader Parser ParseError

namespace Parser

variable {α : Type}

def tokenAt (parser : Parser) (ahead : Nat) : Token := (parser.rest[ahead]?.map SpannedToken.token).getD .eof

def offset (parser : Parser) : Nat :=
  match parser.rest with
  | token :: _ => token.offset
  | [] => parser.last

def skip (count : Nat) (parser : Parser) : Parser := { parser with rest := parser.rest.drop count }

private theorem skip_le (count : Nat) (parser : Parser) : parser.skip count ≤ parser :=
  ⟨List.drop_suffix count parser.rest, rfl⟩

def peek : Parse Token := .look fun parser => parser.tokenAt 0

def peekAt (ahead : Nat) : Parse Token := .look fun parser => parser.tokenAt ahead

def advance : Parse Unit := .move (skip 1) (skip_le 1)

def err (message : String) : Parse α := .fail fun parser => ⟨message, parser.offset⟩

def expected (what : String) : Parse α :=
  .fail fun parser => ⟨s!"expected {what}, found {(parser.tokenAt 0).describe}", parser.offset⟩

def eat (token : Token) : Parse Bool := do
  if (← peek) = token then do
    advance
    pure true
  else pure false

def eatKeyword (keyword : Keyword) : Parse Bool := eat (.keyword keyword)

/-- Whether these keywords come next, in this order. -/
def startsWith : List Keyword → List SpannedToken → Bool
  | [], _ => true
  | keyword :: keywords, spanned :: rest => spanned.token = .keyword keyword && startsWith keywords rest
  | _ :: _, [] => false

def eatKeywords (keywords : List Keyword) : Parse Bool := do
  if ← .look fun parser => startsWith keywords parser.rest then do
    .move (skip keywords.length) (skip_le keywords.length)
    pure true
  else pure false

def expect (token : Token) : Parse Unit := do
  if ← eat token then pure () else expected token.describe

def expectKeyword (keyword : Keyword) : Parse Unit := do
  if ← eatKeyword keyword then pure () else expected s!"keyword \x60{keyword.asStr}\x60"

/-! ## Shapes many clauses have -/

/-- One or more, with commas between. -/
def commaSeparated (item : Parse α) : Parse (List α) := do
  let first ← item
  Reader.manyWhile (eat .comma) item [first]

/-- A clause that a keyword opens. -/
def clause (keyword : Keyword) (item : Parse α) : Parse (Option α) := do
  if ← eatKeyword keyword then some <$> item else pure none

/-- A list that two keywords open; without them it is empty. -/
def listClause (keywords : List Keyword) (item : Parse α) : Parse (List α) := do
  if ← eatKeywords keywords then commaSeparated item else pure []

/-! ## Names and types -/

def parseIdentifier : Parse String := do
  match ← peek with
  | .ident name => do
    advance
    pure name
  | .keyword word =>
    if word.isReserved then expected "an identifier"
    else do
      advance
      pure word.asStr
  | _ => expected "an identifier"

def isIdentifier : Token → Bool
  | .ident _ => true
  | .keyword word => !word.isReserved
  | _ => false

/-- A name that follows directly, or after `AS`. -/
def parseOptionalAlias : Parse (Option String) := do
  if ← eatKeyword .as then some <$> parseIdentifier
  else if isIdentifier (← peek) then some <$> parseIdentifier
  else pure none

/-- Take a dot that a name follows. -/
def eatDot : Parse Bool := do
  if (← peek) = .dot && isIdentifier (← peekAt 1) then do
    advance
    pure true
  else pure false

def parseObjectName : Parse ObjectName := do
  let first ← parseIdentifier
  let parts ← Reader.manyWhile eatDot parseIdentifier [first]
  if 2 < parts.length then err "names qualified by more than one level are not supported"
  else pure ⟨parts⟩

def parseColumnList : Parse (List String) := do
  expect .lParen
  let names ← commaSeparated parseIdentifier
  expect .rParen
  pure names

/-- The types that are one word. -/
def typeNamed : Keyword → Option DataType
  | .bool | .boolean => some .boolean
  | .int | .int4 | .integer => some .int4
  | .bigint | .int8 => some .int8
  | .float8 => some .float8
  | .text => some .text
  | .timestamp | .timestamptz => some .timestamp
  | .uuid => some .uuid
  | .json | .jsonb => some .json
  | _ => none

/-- The length of a `VARCHAR`, which is not kept. -/
def parseVarcharLength : Parse Unit := do
  if ← eat .lParen then
    match ← peek with
    | .number _ => do
      advance
      expect .rParen
    | _ => expected "a length"
  else pure ()

def parseDataType : Parse DataType := do
  match ← peek with
  | .keyword .double => do
    advance
    expectKeyword .precision
    pure .float8
  | .keyword .varchar => do
    advance
    parseVarcharLength
    pure .text
  | .keyword word =>
    match typeNamed word with
    | some type => do
      advance
      pure type
    | none => expected "a type name"
  | _ => expected "a type name"

end Parser
end Ferrite
