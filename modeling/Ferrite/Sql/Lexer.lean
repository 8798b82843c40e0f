import Ferrite.Common.Value
import Ferrite.Logical.Numeral
import Ferrite.Logical.Reader

/-!
# Tokens

`ferrite-sql/src/lexer.rs`: SQL text is cut into tokens, each with the byte offset it
starts at. What the standard library says of characters outside ASCII, and which double
a numeral denotes, is taken as given.
-/

namespace Ferrite

open Logical

/-- A failure, with the byte offset it points at. -/
structure ParseError where
  message : String
  offset : Nat
deriving DecidableEq, Inhabited

inductive Keyword where
  | add | after | all | alter | and | as | asc | before | «begin» | between | bigint | bool | boolean
  | «by» | call | cascade | «case» | cast | column | commit | conflict | create | collate | cross | default
  | delete | desc | distinct | «do» | double | drop | each | «else» | elsif | «end» | except | execute
  | «exists» | «false» | first | float8 | «for» | «from» | full | function | group | having | «if» | ilike
  | «in» | index | inner | insert | int | int4 | int8 | integer | intersect | into | is | join | json
  | jsonb | key | last | left | like | limit | not | nothing | null | nulls | offset | on | or | order
  | outer | precision | primary | procedure | raise | replace | restrict | «return» | returning | right
  | rollback | row | select | set | start | statement | table | text | «then» | timestamp | timestamptz
  | transaction | trigger | «true» | union | unique | update | «using» | uuid | values | varchar | when
  | «where» | «with» | work
deriving DecidableEq

namespace Keyword

/-- Reserved keywords never stand for an identifier. -/
def isReserved : Keyword → Bool
  | .add | .bigint | .bool | .boolean | .cascade | .column | .conflict | .«do» | .double | .each | .first
  | .float8 | .function | .index | .int | .int4 | .int8 | .integer | .json | .jsonb | .key | .last | .nulls
  | .nothing | .precision | .procedure | .replace | .restrict | .row | .statement | .text | .timestamp
  | .timestamptz | .transaction | .trigger | .uuid | .varchar | .work => Bool.false
  | _ => Bool.true

/-- The lower-case spelling. -/
def asStr : Keyword → String
  | .add => "add" | .after => "after" | .all => "all" | .alter => "alter" | .and => "and" | .as => "as"
  | .asc => "asc" | .before => "before" | .«begin» => "begin" | .between => "between" | .bigint => "bigint"
  | .bool => "bool" | .boolean => "boolean" | .«by» => "by" | .call => "call" | .cascade => "cascade"
  | .«case» => "case" | .cast => "cast" | .column => "column" | .commit => "commit"
  | .conflict => "conflict" | .create => "create" | .collate => "collate" | .cross => "cross"
  | .default => "default" | .delete => "delete" | .desc => "desc" | .distinct => "distinct" | .«do» => "do"
  | .double => "double" | .drop => "drop" | .each => "each" | .«else» => "else" | .elsif => "elsif"
  | .«end» => "end" | .except => "except" | .execute => "execute" | .«exists» => "exists"
  | .«false» => "false" | .first => "first" | .float8 => "float8" | .«for» => "for" | .«from» => "from"
  | .full => "full" | .function => "function" | .group => "group" | .having => "having" | .«if» => "if"
  | .ilike => "ilike" | .«in» => "in" | .index => "index" | .inner => "inner" | .insert => "insert"
  | .int => "int" | .int4 => "int4" | .int8 => "int8" | .integer => "integer" | .intersect => "intersect"
  | .into => "into" | .is => "is" | .join => "join" | .json => "json" | .jsonb => "jsonb" | .key => "key"
  | .last => "last" | .left => "left" | .like => "like" | .limit => "limit" | .not => "not"
  | .nothing => "nothing" | .null => "null" | .nulls => "nulls" | .offset => "offset" | .on => "on"
  | .or => "or" | .order => "order" | .outer => "outer" | .precision => "precision" | .primary => "primary"
  | .procedure => "procedure" | .raise => "raise" | .replace => "replace" | .restrict => "restrict"
  | .«return» => "return" | .returning => "returning" | .right => "right" | .rollback => "rollback"
  | .row => "row" | .select => "select" | .set => "set" | .start => "start" | .statement => "statement"
  | .table => "table" | .text => "text" | .«then» => "then" | .timestamp => "timestamp"
  | .timestamptz => "timestamptz" | .transaction => "transaction" | .trigger => "trigger"
  | .«true» => "true" | .union => "union" | .unique => "unique" | .update => "update" | .«using» => "using"
  | .uuid => "uuid" | .values => "values" | .varchar => "varchar" | .when => "when" | .«where» => "where"
  | .«with» => "with" | .work => "work"

end Keyword

def keywordFromStr : String → Option Keyword
  | "add" => some .add | "after" => some .after | "all" => some .all | "alter" => some .alter
  | "and" => some .and | "as" => some .as | "asc" => some .asc | "before" => some .before
  | "begin" => some .«begin» | "between" => some .between | "bigint" => some .bigint | "bool" => some .bool
  | "boolean" => some .boolean | "by" => some .«by» | "call" => some .call | "cascade" => some .cascade
  | "case" => some .«case» | "cast" => some .cast | "column" => some .column | "commit" => some .commit
  | "conflict" => some .conflict | "create" => some .create | "collate" => some .collate
  | "cross" => some .cross | "default" => some .default | "delete" => some .delete | "desc" => some .desc
  | "distinct" => some .distinct | "do" => some .«do» | "double" => some .double | "drop" => some .drop
  | "each" => some .each | "else" => some .«else» | "elsif" => some .elsif | "end" => some .«end»
  | "except" => some .except | "execute" => some .execute | "exists" => some .«exists»
  | "false" => some .«false» | "first" => some .first | "float8" => some .float8 | "for" => some .«for»
  | "from" => some .«from» | "full" => some .full | "function" => some .function | "group" => some .group
  | "having" => some .having | "if" => some .«if» | "ilike" => some .ilike | "in" => some .«in»
  | "index" => some .index | "inner" => some .inner | "insert" => some .insert | "int" => some .int
  | "int4" => some .int4 | "int8" => some .int8 | "integer" => some .integer
  | "intersect" => some .intersect | "into" => some .into | "is" => some .is | "join" => some .join
  | "json" => some .json | "jsonb" => some .jsonb | "key" => some .key | "last" => some .last
  | "left" => some .left | "like" => some .like | "limit" => some .limit | "not" => some .not
  | "nothing" => some .nothing | "null" => some .null | "nulls" => some .nulls | "offset" => some .offset
  | "on" => some .on | "or" => some .or | "order" => some .order | "outer" => some .outer
  | "precision" => some .precision | "primary" => some .primary | "procedure" => some .procedure
  | "raise" => some .raise | "replace" => some .replace | "restrict" => some .restrict
  | "return" => some .«return» | "returning" => some .returning | "right" => some .right
  | "rollback" => some .rollback | "row" => some .row | "select" => some .select | "set" => some .set
  | "start" => some .start | "statement" => some .statement | "table" => some .table | "text" => some .text
  | "then" => some .«then» | "timestamp" => some .timestamp | "timestamptz" => some .timestamptz
  | "transaction" => some .transaction | "trigger" => some .trigger | "true" => some .«true»
  | "union" => some .union | "unique" => some .unique | "update" => some .update | "using" => some .«using»
  | "uuid" => some .uuid | "values" => some .values | "varchar" => some .varchar | "when" => some .when
  | "where" => some .«where» | "with" => some .«with» | "work" => some .work
  | _ => none

/-- Unquoted identifiers are already in lower case, string literals decoded. -/
inductive Token where
  | keyword (keyword : Keyword)
  | ident (name : String)
  | number (text : String)
  | stringLit (value : String)
  | param (index : UInt32)
  | comma | semi | lParen | rParen | dot | star | plus | minus | slash | percent | concat
  | eq | notEq | lt | ltEq | gt | gtEq
  | eof
deriving DecidableEq

/-- How messages name a token. -/
def Token.describe : Token → String
  | .keyword word => s!"keyword \x60{word.asStr}\x60"
  | .ident name => s!"identifier \x60{name}\x60"
  | .number text => s!"number \x60{text}\x60"
  | .stringLit _ => "string literal"
  | .param index => s!"parameter \x60${index}\x60"
  | .comma => "\x60,\x60"
  | .semi => "\x60;\x60"
  | .lParen => "\x60(\x60"
  | .rParen => "\x60)\x60"
  | .dot => "\x60.\x60"
  | .star => "\x60*\x60"
  | .plus => "\x60+\x60"
  | .minus => "\x60-\x60"
  | .slash => "\x60/\x60"
  | .percent => "\x60%\x60"
  | .concat => "\x60||\x60"
  | .eq => "\x60=\x60"
  | .notEq => "\x60<>\x60"
  | .lt => "\x60<\x60"
  | .ltEq => "\x60<=\x60"
  | .gt => "\x60>\x60"
  | .gtEq => "\x60>=\x60"
  | .eof => "end of input"

structure SpannedToken where
  token : Token
  offset : Nat
deriving DecidableEq

/-! ## Characters -/

def isAscii (char : Char) : Bool := char.toNat < 128

/-- The ASCII characters `char::is_whitespace` accepts. -/
def isAsciiSpace (char : Char) : Bool := char = ' ' || (9 ≤ char.toNat && char.toNat ≤ 13)

/-- What the standard library knows of characters and numerals: `char::is_whitespace`,
`char::is_alphabetic`, `str::to_lowercase`, and `f64::from_str` where its result is
finite. -/
structure Alphabet where
  isWhitespace : Char → Bool
  isAlphabetic : Char → Bool
  toLowercase : String → String
  readFloat : String → Option UInt64
  isWhitespace_ascii : ∀ char, isAscii char → isWhitespace char = isAsciiSpace char
  toLowercase_ascii : ∀ text : List Char, (∀ char ∈ text, isAscii char) →
    toLowercase (.ofList text) = .ofList (text.map Char.toLower)
  readFloat_finite : ∀ text bits, readFloat text = some bits → Float8.isNaN bits = false

variable (alphabet : Alphabet)

def isAsciiAlphabetic (char : Char) : Bool := ('a' ≤ char && char ≤ 'z') || ('A' ≤ char && char ≤ 'Z')

def isAsciiDigit (char : Char) : Bool := '0' ≤ char && char ≤ '9'

def isIdentStart (char : Char) : Bool :=
  isAsciiAlphabetic char || char = '_' || (!isAscii char && alphabet.isAlphabetic char)

def isIdentContinue (char : Char) : Bool := isIdentStart alphabet char || isAsciiDigit char || char = '$'

/-! ## The lexer -/

/-- The characters left, and the byte offset of the first of them. -/
structure Lexer where
  offset : Nat
  rest : List Char

instance : Input Lexer where
  le after before := after.rest <:+ before.rest
  le_refl lexer := List.suffix_refl lexer.rest
  le_trans _ _ _ first second := first.trans second
  size lexer := lexer.rest.length
  size_mono suffix := suffix.length_le

abbrev Lex := Reader Lexer ParseError

namespace Lexer

def skip (count : Nat) (lexer : Lexer) : Lexer :=
  ⟨lexer.offset + ((lexer.rest.take count).map Char.utf8Size).sum, lexer.rest.drop count⟩

def advance (count : Nat) : Lex Unit := .move (skip count) fun lexer => List.drop_suffix count lexer.rest

def peek : Lex (Option Char) := .look fun lexer => lexer.rest.head?

def peekAt (ahead : Nat) : Lex (Option Char) := .look fun lexer => lexer.rest[ahead]?

def here : Lex Nat := .look Lexer.offset

def err {α : Type} (offset : Nat) (message : String) : Lex α := .fail fun _ => ⟨message, offset⟩

/-- The characters up to the first that fails the test. -/
def takeWhile (test : Char → Bool) : Lex (List Char) := do
  let text ← .look fun lexer => lexer.rest.takeWhile test
  advance text.length
  pure text

/-- `'`. -/
def quote : Char := Char.ofNat 39

/-- `"`. -/
def doubleQuote : Char := Char.ofNat 34

/-! ### Between tokens -/

/-- One round inside a block comment; they nest. -/
def blockCommentStep (start depth : Nat) : Lex (Nat ⊕ Unit) :=
  if depth = 0 then pure (.inr ())
  else do
    match ← peek, ← peekAt 1 with
    | none, _ => err start "unterminated block comment"
    | some char, next =>
      if char = '*' ∧ next = some '/' then do
        advance 2
        pure (.inl (depth - 1))
      else if char = '/' ∧ next = some '*' then do
        advance 2
        pure (.inl (depth + 1))
      else do
        advance 1
        pure (.inl depth)

def skipBlockComment : Lex Unit := do
  let start ← here
  advance 2
  Reader.loop (blockCommentStep start) 1

def skipTriviaStep (_ : Unit) : Lex (Unit ⊕ Unit) := do
  match ← peek, ← peekAt 1 with
  | none, _ => pure (.inr ())
  | some char, next =>
    if alphabet.isWhitespace char then do
      advance 1
      pure (.inl ())
    else if char = '-' ∧ next = some '-' then do
      let _ ← takeWhile fun char => char ≠ Char.ofNat 10
      pure (.inl ())
    else if char = '/' ∧ next = some '*' then do
      skipBlockComment
      pure (.inl ())
    else pure (.inr ())

def skipTrivia : Lex Unit := Reader.loop (skipTriviaStep alphabet) ()

/-! ### Tokens -/

/-- One round inside a quoted text; a doubled mark stands for itself. -/
def quotedStep (mark : Char) (unterminated : Lex (List Char)) (value : List Char) :
    Lex (List Char ⊕ List Char) := do
  match ← peek, ← peekAt 1 with
  | none, _ => .inr <$> unterminated
  | some char, next =>
    if char = mark then
      if next = some mark then do
        advance 2
        pure (.inl (value ++ [mark]))
      else do
        advance 1
        pure (.inr value)
    else do
      advance 1
      pure (.inl (value ++ [char]))

def lexString (start : Nat) : Lex Token := do
  advance 1
  let value ← Reader.loop (quotedStep quote (err start "unterminated string literal")) []
  pure (.stringLit (.ofList value))

def lexQuotedIdent (start : Nat) : Lex Token := do
  advance 1
  let value ← Reader.loop (quotedStep doubleQuote (err start "unterminated quoted identifier")) []
  if value.isEmpty then err start "zero-length quoted identifier" else pure (.ident (.ofList value))

def lexFraction : Lex (List Char) := do
  match ← peek, ← peekAt 1 with
  | some '.', some next =>
    if isAsciiDigit next then do
      advance 1
      let digits ← takeWhile isAsciiDigit
      pure ('.' :: digits)
    else pure []
  | _, _ => pure []

/-- Whether an exponent mark is followed by a digit, perhaps after a sign. -/
def exponentDigit (next afterNext : Option Char) : Bool :=
  match next with
  | some char => if char = '+' || char = '-' then afterNext.any isAsciiDigit else isAsciiDigit char
  | none => false

def lexExponent : Lex (List Char) := do
  let mark ← .look fun lexer => lexer.rest.take 2
  let current ← peek
  let next ← peekAt 1
  let afterNext ← peekAt 2
  if (current = some 'e' || current = some 'E') && exponentDigit next afterNext then do
    advance 2
    let digits ← takeWhile isAsciiDigit
    pure (mark ++ digits)
  else pure []

def lexNumber (start : Nat) : Lex Token := do
  let whole ← takeWhile isAsciiDigit
  let fraction ← lexFraction
  let exponent ← lexExponent
  let next ← peek
  if next.any (isIdentStart alphabet) then err start "invalid numeric literal"
  else pure (.number (.ofList (whole ++ fraction ++ exponent)))

/-- A number below the bound, written in decimal digits. -/
def readBelow (bound : Nat) (digits : List Char) : Option Nat := (Numeral.readDigits 10 0 digits).filter (· < bound)

def lexParam (start : Nat) : Lex Token := do
  advance 1
  let digits ← takeWhile isAsciiDigit
  if digits.isEmpty then err start "expected a digit after \x60$\x60"
  else
    match readBelow (2 ^ 32) digits with
    | some index => pure (.param (.ofNat index))
    | none => err start "parameter index out of range"

/-- Words are folded to lower case before they are looked up. -/
def wordToken (folded : String) : Token :=
  match keywordFromStr folded with
  | some keyword => .keyword keyword
  | none => .ident folded

def lexWord : Lex Token := do
  let raw ← takeWhile (isIdentContinue alphabet)
  pure (wordToken (alphabet.toLowercase (.ofList raw)))

/-- A token of one character, or of two if the second is as given. -/
def oneOrTwo (next : Option Char) (second : Char) (two one : Token) : Lex Token :=
  if next = some second then do
    advance 1
    pure two
  else pure one

/-- An operator or a punctuation mark; its first character is already taken. -/
def lexSymbol (start : Nat) (char : Char) (next : Option Char) : Lex Token :=
  match char with
  | ',' => pure .comma
  | ';' => pure .semi
  | '(' => pure .lParen
  | ')' => pure .rParen
  | '.' => pure .dot
  | '*' => pure .star
  | '+' => pure .plus
  | '-' => pure .minus
  | '/' => pure .slash
  | '%' => pure .percent
  | '=' => pure .eq
  | '|' =>
    if next = some '|' then do
      advance 1
      pure .concat
    else err start "unexpected character \x60|\x60 (did you mean \x60||\x60?)"
  | '!' =>
    if next = some '=' then do
      advance 1
      pure .notEq
    else err start "unexpected character \x60!\x60 (did you mean \x60!=\x60?)"
  | '<' => if next = some '>' then oneOrTwo next '>' .notEq .lt else oneOrTwo next '=' .ltEq .lt
  | '>' => oneOrTwo next '=' .gtEq .gt
  | other => err start s!"unexpected character \x60{other}\x60"

def nextToken : Lex Token := do
  let start ← here
  match ← peek with
  | none => pure .eof
  | some char =>
    if char = quote then lexString start
    else if char = doubleQuote then lexQuotedIdent start
    else if isAsciiDigit char then lexNumber alphabet start
    else if char = '$' then lexParam start
    else if isIdentStart alphabet char then lexWord alphabet
    else do
      advance 1
      let next ← peek
      lexSymbol start char next

/-! ### The whole text -/

def tokenizeStep (out : List SpannedToken) : Lex (List SpannedToken ⊕ List SpannedToken) := do
  skipTrivia alphabet
  let offset ← here
  match ← peek with
  | none => pure (.inr (out ++ [⟨.eof, offset⟩]))
  | some _ => do
    let token ← nextToken alphabet
    pure (.inl (out ++ [⟨token, offset⟩]))

/-- The tokens from here on, an end mark last. -/
def tokens : Lex (List SpannedToken) := Reader.loop (tokenizeStep alphabet) []

end Lexer

def tokenize (text : String) : Except ParseError (List SpannedToken) :=
  Prod.fst <$> (Lexer.tokens alphabet).run ⟨0, text.toList⟩

end Ferrite
