import Ferrite.Sql.Cursor
import Ferrite.Sql.Tree

/-!
# Expressions and queries

The productions of `ferrite-sql/src/parser.rs` for expressions and queries. A production
that calls `enter` is a member of `Grammar`: the grammar at hand is the one with as many
levels left as `depth` leaves below `MAX_DEPTH`. Since every `enter` has its `leave` on
each path that goes on, passing the grammar down is what the counter does.
-/

namespace Ferrite.Parser

open Logical
open Sql (Literal)
open Plan (BinaryOp JoinType)
open Ferrite.Tree (Expr Query SetExpr Select SelectItem OrderByItem Cte TableWithJoins TableFactor Join JoinConstraint
  ProcStatement)

/-- The productions that are one level deeper than their caller, and the loop of
`parse_subexpr` from where it stands. -/
structure Grammar where
  subexpr : Nat → Parse Expr
  climb : Nat → Expr → Parse Expr
  operand : Parse Expr
  query : Parse Query
  setExpr : Parse SetExpr
  procBlock : List Keyword → Parse (List ProcStatement)
  procStatement : Parse ProcStatement

variable (alphabet : Alphabet) (grammar : Grammar)

def parseExpr : Parse Expr := grammar.subexpr 0

/-! ## Operators -/

def precedence (token next : Token) : Option Nat :=
  match token with
  | .keyword .or => some 1
  | .keyword .and => some 2
  | .keyword .is | .keyword .«in» | .keyword .between | .keyword .like | .keyword .ilike => some 4
  | .keyword .not =>
    match next with
    | .keyword .«in» | .keyword .between | .keyword .like | .keyword .ilike => some 4
    | _ => none
  | .eq | .notEq | .lt | .ltEq | .gt | .gtEq => some 5
  | .concat => some 6
  | .plus | .minus => some 7
  | .star | .slash | .percent => some 8
  | .keyword .collate => some 9
  | _ => none

def peekPrecedence : Parse (Option Nat) := .look fun parser => precedence (parser.tokenAt 0) (parser.tokenAt 1)

/-- The operator of the run that starts here, if one does. -/
def booleanRun (minPrecedence : Nat) : Token → Option BinaryOp
  | .keyword .or => if minPrecedence < 1 then some .or else none
  | .keyword .and => if minPrecedence < 2 then some .and else none
  | _ => none

def peekBooleanRun (minPrecedence : Nat) : Parse (Option BinaryOp) :=
  .look fun parser => booleanRun minPrecedence (parser.tokenAt 0)

/-- One halving of the operands of a run. -/
def pairOperands (op : BinaryOp) : List Expr → List Expr
  | left :: right :: rest => .binaryOp left op right :: pairOperands op rest
  | operands => operands

/-- Halve until at most one is left; every round leaves at most half of them. -/
def foldOperands (op : BinaryOp) : Nat → List Expr → List Expr
  | 0, operands => operands
  | rounds + 1, operands =>
    if 1 < operands.length then foldOperands op rounds (pairOperands op operands) else operands

def runKeyword : BinaryOp → Keyword
  | .or => .or
  | _ => .and

/-- Every operand of one `AND`/`OR` run, folded into a balanced tree. -/
def parseBooleanRun (subexpr : Nat → Parse Expr) (first : Expr) (op : BinaryOp) (precedence : Nat) : Parse Expr := do
  let operands ← Reader.manyWhile (eatKeyword (runKeyword op)) (subexpr precedence) [first]
  match (foldOperands op operands.length operands).getLast? with
  | some folded => pure folded
  | none => err "a boolean operand"

def operatorOf : Token → Option BinaryOp
  | .keyword .or => some .or
  | .keyword .and => some .and
  | .eq => some .eq
  | .notEq => some .notEq
  | .lt => some .lt
  | .ltEq => some .ltEq
  | .gt => some .gt
  | .gtEq => some .gtEq
  | .concat => some .concat
  | .plus => some .plus
  | .minus => some .minus
  | .star => some .multiply
  | .slash => some .divide
  | .percent => some .modulo
  | _ => none

def startsQuery : Token → Bool
  | .keyword .select | .keyword .«with» => true
  | _ => false

/-- The expressions up to the closing parenthesis, which is taken too. -/
def parseExprsInParens : Parse (List Expr) := do
  if (← peek) = .rParen then do
    advance
    pure []
  else do
    let exprs ← commaSeparated (parseExpr grammar)
    expect .rParen
    pure exprs

def parseBetween (left : Expr) (negated : Bool) : Parse Expr := do
  let low ← grammar.subexpr 5
  expectKeyword .and
  let high ← grammar.subexpr 5
  pure (.between left negated low high)

def parseLike (left : Expr) (negated caseInsensitive : Bool) (precedence : Nat) : Parse Expr := do
  let pattern ← grammar.subexpr precedence
  pure (.like left pattern negated caseInsensitive)

def parseIn (left : Expr) (negated : Bool) : Parse Expr := do
  expect .lParen
  if startsQuery (← peek) then do
    let subquery ← grammar.query
    expect .rParen
    pure (.inSubquery left ⟨subquery⟩ negated)
  else do
    let list ← parseExprsInParens grammar
    pure (.inList left list negated)

def parseOperator (left : Expr) (precedence : Nat) : Parse Expr := do
  match operatorOf (← peek) with
  | none => expected "an operator"
  | some op => do
    advance
    let right ← grammar.subexpr precedence
    pure (.binaryOp left op right)

/-- What may stand after `NOT`, or an operator where there was none. -/
def parseTest (left : Expr) (negated : Bool) (precedence : Nat) : Parse Expr := do
  if ← eatKeyword .between then parseBetween grammar left negated
  else if ← eatKeyword .like then parseLike grammar left negated false precedence
  else if ← eatKeyword .ilike then parseLike grammar left negated true precedence
  else if ← eatKeyword .«in» then parseIn grammar left negated
  else if negated then expected "\x60IN\x60, \x60BETWEEN\x60, \x60LIKE\x60 or \x60ILIKE\x60 after \x60NOT\x60"
  else parseOperator grammar left precedence

def parseCollate (left : Expr) : Parse Expr := do
  let collation ← parseIdentifier
  pure (.collate left collation)

def parseIsNull (left : Expr) : Parse Expr := do
  let negated ← eatKeyword .not
  expectKeyword .null
  pure (.isNull left negated)

def parseInfix (left : Expr) (precedence : Nat) : Parse Expr := do
  if ← eatKeyword .collate then parseCollate left
  else if ← eatKeyword .is then parseIsNull left
  else do
    let negated ← eatKeyword .not
    parseTest grammar left negated precedence

/-- One round of the loop of `parse_subexpr`: a run is folded into a balanced tree, any
other operator folds to the left. -/
def climbStep (subexpr : Nat → Parse Expr) (fold : Nat → Expr → Nat → Parse Expr) (minPrecedence : Nat) (left : Expr) :
    Parse (Expr ⊕ Expr) := do
  match ← peekPrecedence with
  | none => pure (.inr left)
  | some precedence =>
    if precedence ≤ minPrecedence then pure (.inr left)
    else
      match ← peekBooleanRun minPrecedence with
      | some op => .inl <$> parseBooleanRun subexpr left op precedence
      | none => .inr <$> fold minPrecedence left precedence

def climb (subexpr : Nat → Parse Expr) (fold : Nat → Expr → Nat → Parse Expr) (minPrecedence : Nat) :
    Expr → Parse Expr :=
  Reader.loop (climbStep subexpr fold minPrecedence)

/-! ## Operands -/

def numberLiteral (raw : String) : Parse Expr :=
  if raw.toList.any fun char => char = '.' || char = 'e' || char = 'E' then
    match read : alphabet.readFloat raw with
    | some bits => pure (.literal (.float bits (alphabet.readFloat_finite raw bits read)))
    | none => err "numeric literal out of range"
  else
    match Lexer.readBelow (2 ^ 63) raw.toList with
    | some value => pure (.literal (.int (.ofNat value)))
    | none => err "integer literal out of range for \x60bigint\x60"

/-- The argument list of a call, up to the closing parenthesis. -/
def parseFunctionArgs (name : String) : Parse Expr := do
  let distinct ← eatKeyword .distinct
  let args ← parseExprsInParens grammar
  if distinct && args.isEmpty then err "\x60DISTINCT\x60 requires at least one argument"
  else pure (.function ⟨name, .list args, distinct⟩)

def parseFunctionCall (name : String) : Parse Expr := do
  expect .lParen
  if ← eat .star then do
    expect .rParen
    pure (.function ⟨name, .wildcard, false⟩)
  else parseFunctionArgs grammar name

/-- A column, or a call if a parenthesis follows. -/
def parseName : Parse Expr := do
  let name ← parseObjectName
  if (← peek) = .lParen then
    if name.parts.length ≠ 1 then err "qualified function names are not supported"
    else parseFunctionCall grammar name.base
  else pure (.column name)

def parseCaseOperand : Parse (Option Expr) := do
  if (← peek) = .keyword .when then pure none else some <$> parseExpr grammar

def parseBranch : Parse (Expr × Expr) := do
  let condition ← parseExpr grammar
  expectKeyword .«then»
  let result ← parseExpr grammar
  pure (condition, result)

def parseCase : Parse Expr := do
  expectKeyword .«case»
  let operand ← parseCaseOperand grammar
  let branches ← Reader.manyWhile (eatKeyword .when) (parseBranch grammar) []
  if branches.isEmpty then expected "at least one \x60WHEN\x60 branch"
  else do
    let elseResult ← clause .«else» (parseExpr grammar)
    expectKeyword .«end»
    pure (.caseWhen operand branches elseResult)

def parseUnary (op : Ast.UnaryOp) (precedence : Nat) : Parse Expr := do
  advance
  let expr ← grammar.subexpr precedence
  pure (.unaryOp op expr)

/-- A literal that is one token. -/
def parseLiteral (literal : Literal) : Parse Expr := do
  advance
  pure (.literal literal)

def parseExists : Parse Expr := do
  advance
  expect .lParen
  let subquery ← grammar.query
  expect .rParen
  pure (.exists ⟨subquery⟩ false)

def parseCast : Parse Expr := do
  advance
  expect .lParen
  let expr ← parseExpr grammar
  expectKeyword .as
  let dataType ← parseDataType
  expect .rParen
  pure (.cast expr dataType)

/-- A scalar subquery, or an expression whose parentheses leave no trace. -/
def parseParens : Parse Expr := do
  advance
  if startsQuery (← peek) then do
    let subquery ← grammar.query
    expect .rParen
    pure (.subquery ⟨subquery⟩)
  else do
    let expr ← parseExpr grammar
    expect .rParen
    pure expr

def parsePrefixInner : Parse Expr := do
  match ← peek with
  | .minus => parseUnary grammar .minus 8
  | .plus => parseUnary grammar .plus 8
  | .keyword .not => parseUnary grammar .not 3
  | .keyword .null => parseLiteral .null
  | .keyword .«true» => parseLiteral (.boolean true)
  | .keyword .«false» => parseLiteral (.boolean false)
  | .keyword .«exists» => parseExists grammar
  | .keyword .cast => parseCast grammar
  | .keyword .«case» => parseCase grammar
  | .stringLit value => parseLiteral (.string value)
  | .number raw => do
    advance
    numberLiteral alphabet raw
  | .param index => do
    advance
    pure (.parameter index)
  | .lParen => parseParens grammar
  | .ident _ => parseName grammar
  | .keyword word => if word.isReserved then expected "an expression" else .column <$> parseObjectName
  | _ => expected "an expression"

/-! ## Tables -/

def parseTableFactor : Parse TableFactor := do
  if ← eat .lParen then do
    let subquery ← grammar.query
    expect .rParen
    match ← parseOptionalAlias with
    | some aliasName => pure (.derived ⟨subquery⟩ aliasName)
    | none => err "a subquery in \x60FROM\x60 must have an alias"
  else do
    let name ← parseObjectName
    let aliasName ← parseOptionalAlias
    pure (.table name aliasName)

/-- The rest of a join that may say `OUTER`. -/
def parseOuterJoin (joinType : JoinType) : Parse (Option JoinType) := do
  let _ ← eatKeyword .outer
  expectKeyword .join
  pure (some joinType)

def parsePlainJoin (joinType : JoinType) : Parse (Option JoinType) := do
  expectKeyword .join
  pure (some joinType)

def parseJoinType : Parse (Option JoinType) := do
  if ← eatKeyword .cross then parsePlainJoin .cross
  else if ← eatKeyword .inner then parsePlainJoin .inner
  else if ← eatKeyword .left then parseOuterJoin .left
  else if ← eatKeyword .right then parseOuterJoin .right
  else if ← eatKeyword .full then parseOuterJoin .full
  else if ← eatKeyword .join then pure (some .inner)
  else pure none

def parseJoinConstraint : Parse JoinConstraint := do
  if ← eatKeyword .on then .on <$> parseExpr grammar
  else if ← eatKeyword .«using» then .using <$> parseColumnList
  else pure .none

/-- A cross join has no condition, any other join has one. -/
def checkJoin (joinType : JoinType) (constraint : JoinConstraint) : Parse Unit :=
  match joinType, constraint with
  | .cross, .none => pure ()
  | .cross, _ => err "\x60CROSS JOIN\x60 does not take a join condition"
  | _, .none => err "this join requires an \x60ON\x60 or \x60USING\x60 clause"
  | _, _ => pure ()

def parseJoin (joinType : JoinType) : Parse Join := do
  let relation ← parseTableFactor grammar
  let constraint ← parseJoinConstraint grammar
  checkJoin joinType constraint
  pure ⟨joinType, relation, constraint⟩

def joinsStep (joins : List Join) : Parse (List Join ⊕ List Join) := do
  match ← parseJoinType with
  | none => pure (.inr joins)
  | some joinType => do
    let join ← parseJoin grammar joinType
    pure (.inl (joins ++ [join]))

def parseTableWithJoins : Parse TableWithJoins := do
  let relation ← parseTableFactor grammar
  let joins ← Reader.loop (joinsStep grammar) []
  pure ⟨relation, joins⟩

/-! ## Queries -/

/-- `name.*` comes next. -/
def startsQualifiedWildcard (parser : Parser) : Bool :=
  match parser.tokenAt 0 with
  | .ident _ => parser.tokenAt 1 = .dot && parser.tokenAt 2 = .star
  | _ => false

def parseQualifiedWildcard : Parse SelectItem := do
  let qualifier ← parseIdentifier
  advance
  advance
  pure (.qualifiedWildcard ⟨[qualifier]⟩)

def parseSelectItem : Parse SelectItem := do
  if ← eat .star then pure .wildcard
  else if ← .look startsQualifiedWildcard then parseQualifiedWildcard
  else do
    let expr ← parseExpr grammar
    let aliasName ← parseOptionalAlias
    pure (.expr expr aliasName)

def parseSelect : Parse Select := do
  expectKeyword .select
  let distinct ← eatKeyword .distinct
  let projection ← commaSeparated (parseSelectItem grammar)
  let sources ← listClause [.«from»] (parseTableWithJoins grammar)
  let selection ← clause .«where» (parseExpr grammar)
  let groupBy ← listClause [.group, .«by»] (parseExpr grammar)
  let having ← clause .having (parseExpr grammar)
  if having.isSome && groupBy.isEmpty then err "\x60HAVING\x60 requires a \x60GROUP BY\x60 clause"
  else pure ⟨distinct, projection, sources, selection, groupBy, having⟩

def parseSetTerm : Parse SetExpr := do
  if ← eat .lParen then do
    let query ← grammar.query
    expect .rParen
    pure (.query query)
  else .select <$> parseSelect grammar

def setOpOf : Token → Option Ast.SetOp
  | .keyword .union => some .union
  | .keyword .intersect => some .intersect
  | .keyword .except => some .except
  | _ => none

/-- One more operator and term; the tree leans to the left. -/
def setExprStep (left : SetExpr) : Parse (SetExpr ⊕ SetExpr) := do
  match setOpOf (← peek) with
  | none => pure (.inr left)
  | some op => do
    advance
    let all ← eatKeyword .all
    let right ← parseSetTerm grammar
    pure (.inl (.setOp op all left right))

def parseSetExpr : Parse SetExpr := do
  let left ← parseSetTerm grammar
  Reader.loop (setExprStep grammar) left

def parseCteColumns : Parse (List String) := do
  if (← peek) = .lParen then parseColumnList else pure []

def parseCte : Parse Cte := do
  let name ← parseIdentifier
  let columns ← parseCteColumns
  expectKeyword .as
  expect .lParen
  let query ← grammar.query
  expect .rParen
  pure ⟨name, columns, ⟨query⟩⟩

def parseDirection : Parse Bool := do
  if ← eatKeyword .desc then pure false
  else do
    let _ ← eatKeyword .asc
    pure true

def parseNulls : Parse (Option Bool) := do
  if ← eatKeyword .nulls then
    if ← eatKeyword .first then pure (some true)
    else if ← eatKeyword .last then pure (some false)
    else expected "\x60FIRST\x60 or \x60LAST\x60"
  else pure none

def parseOrderByItem : Parse OrderByItem := do
  let expr ← parseExpr grammar
  let asc ← parseDirection
  let nullsFirst ← parseNulls
  pure ⟨expr, asc, nullsFirst⟩

def parseLimit : Parse (Option Expr) := do
  if ← eatKeyword .limit then
    if ← eatKeyword .all then pure none else some <$> parseExpr grammar
  else pure none

def parseQuery : Parse Query := do
  let ctes ← listClause [.«with»] (parseCte grammar)
  let body ← grammar.setExpr
  let orderBy ← listClause [.order, .«by»] (parseOrderByItem grammar)
  let limit ← parseLimit grammar
  let offset ← clause .offset (parseExpr grammar)
  pure (.mk ctes body orderBy limit offset)

end Ferrite.Parser
