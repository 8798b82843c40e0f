import Ferrite.Sql.Grammar

/-!
# Statements

The productions of `ferrite-sql/src/parser.rs` for statements, the grammar of each
depth, and `parse`.
-/

namespace Ferrite
namespace Parser

open Logical
open Sql (TableConstraint)
open Ferrite.Tree (Expr SelectItem Assignment OnConflict InsertSource ColumnConstraint ColumnSpec ProcParam
  TriggerTiming TriggerEvent ProcStatement Statement)

variable (alphabet : Alphabet) (grammar : Grammar)

/-! ## Changing rows -/

def parseReturning : Parse (List SelectItem) := listClause [.returning] (parseSelectItem grammar)

def parseAssignment : Parse Assignment := do
  let column ← parseIdentifier
  expect .eq
  let value ← parseExpr grammar
  pure ⟨column, value⟩

/-- The word after `INSERT OR`. -/
def parseResolution : Parse String := do
  match ← peek with
  | .keyword .replace => do
    advance
    pure "replace"
  | .keyword .rollback => do
    advance
    pure "rollback"
  | _ => parseIdentifier

def parseConflictPrefix : Parse (Option Ast.SqliteConflictPrefix) := do
  if ← eatKeyword .or then do
    let resolution ← parseResolution
    match String.ofList (resolution.toList.map Char.toLower) with
    | "ignore" => pure (some .ignore)
    | "replace" => pure (some .replace)
    | "abort" | "fail" | "rollback" => pure none
    | other => err s!"\x60INSERT OR {other}\x60 is not a conflict resolution"
  else pure none

def parseConflictTarget : Parse (List String) := do
  if (← peek) = .lParen then parseColumnList else pure []

def parseConflictUpdate (target : List String) : Parse (Option OnConflict) := do
  expectKeyword .update
  expectKeyword .set
  let assignments ← commaSeparated (parseAssignment grammar)
  let selection ← clause .«where» (parseExpr grammar)
  pure (some ⟨target, .update assignments selection⟩)

def parseOnConflict : Parse (Option OnConflict) := do
  if ← eatKeywords [.on, .conflict] then do
    let target ← parseConflictTarget
    expectKeyword .«do»
    if ← eatKeyword .nothing then pure (some ⟨target, .nothing⟩) else parseConflictUpdate grammar target
  else pure none

/-- A column list, unless a query in parentheses comes next. -/
def parseInsertColumns : Parse (List String) := do
  if (← peek) = .lParen && !startsQuery (← peekAt 1) then parseColumnList else pure []

/-- One row of `VALUES`, as long as the column list where there is one. -/
def parseValuesRow (columns : List String) : Parse (List Expr) := do
  expect .lParen
  let row ← commaSeparated (parseExpr grammar)
  expect .rParen
  if !columns.isEmpty && row.length ≠ columns.length then
    err s!"\x60VALUES\x60 row has {row.length} expressions but {columns.length} columns were named"
  else pure row

def parseInsertSource (columns : List String) : Parse InsertSource := do
  if ← eatKeyword .values then .values <$> commaSeparated (parseValuesRow grammar columns)
  else do
    let query ← grammar.query
    pure (.query ⟨query⟩)

def parseInsert : Parse Statement := do
  expectKeyword .insert
  let resolution ← parseConflictPrefix
  expectKeyword .into
  let table ← parseObjectName
  let columns ← parseInsertColumns
  let source ← parseInsertSource grammar columns
  let written ← parseOnConflict grammar
  let onConflict := written.orElse fun _ => resolution.map fun resolution => resolution.intoOnConflict columns
  let returning ← parseReturning grammar
  pure (.insert ⟨table, columns, source, returning, onConflict⟩)

def parseUpdate : Parse Statement := do
  expectKeyword .update
  let table ← parseObjectName
  let aliasName ← parseOptionalAlias
  expectKeyword .set
  let assignments ← commaSeparated (parseAssignment grammar)
  let selection ← clause .«where» (parseExpr grammar)
  let returning ← parseReturning grammar
  pure (.update ⟨table, aliasName, assignments, selection, returning⟩)

def parseDelete : Parse Statement := do
  expectKeyword .delete
  expectKeyword .«from»
  let table ← parseObjectName
  let aliasName ← parseOptionalAlias
  let selection ← clause .«where» (parseExpr grammar)
  let returning ← parseReturning grammar
  pure (.delete ⟨table, aliasName, selection, returning⟩)

def parseCall : Parse Statement := do
  expectKeyword .call
  let name ← parseObjectName
  expect .lParen
  let args ← parseExprsInParens grammar
  pure (.call ⟨name, args⟩)

/-! ## Tables and indexes -/

/-- One more constraint of a column, if one comes next. -/
def parseColumnConstraint : Parse (Option ColumnConstraint) := do
  if ← eatKeywords [.not, .null] then pure (some .notNull)
  else if ← eatKeyword .null then pure (some .null)
  else if ← eatKeywords [.primary, .key] then pure (some .primaryKey)
  else if ← eatKeyword .unique then pure (some .unique)
  else if ← eatKeyword .default then (fun expr => some (.default expr)) <$> parseExpr grammar
  else if ← eatKeyword .collate then (fun name => some (.collate name)) <$> parseIdentifier
  else pure none

def columnConstraintsStep (constraints : List ColumnConstraint) :
    Parse (List ColumnConstraint ⊕ List ColumnConstraint) := do
  match ← parseColumnConstraint grammar with
  | some constraint => pure (.inl (constraints ++ [constraint]))
  | none => pure (.inr constraints)

def parseColumnSpec : Parse ColumnSpec := do
  let name ← parseIdentifier
  let dataType ← parseDataType
  let constraints ← Reader.loop (columnConstraintsStep grammar) []
  pure ⟨name, dataType, constraints⟩

/-- One entry of a table definition: a constraint or a column. -/
def parseTableEntry : Parse (TableConstraint ⊕ ColumnSpec) := do
  if ← eatKeywords [.primary, .key] then (fun columns => .inl (.primaryKey columns)) <$> parseColumnList
  else if ← eatKeyword .unique then (fun columns => .inl (.unique columns)) <$> parseColumnList
  else .inr <$> parseColumnSpec grammar

def parseCreateTable : Parse Statement := do
  expectKeyword .table
  let ifNotExists ← eatKeywords [.«if», .not, .«exists»]
  let name ← parseObjectName
  expect .lParen
  let entries ← commaSeparated (parseTableEntry grammar)
  expect .rParen
  let columns := entries.filterMap Sum.getRight?
  let constraints := entries.filterMap Sum.getLeft?
  if columns.isEmpty then err "a table needs at least one column"
  else pure (.createTable ⟨ifNotExists, name, columns, constraints⟩)

def parseAlter : Parse Statement := do
  expectKeyword .alter
  expectKeyword .table
  let ifExists ← eatKeywords [.«if», .«exists»]
  let name ← parseObjectName
  if ← eatKeyword .add then do
    let _ ← eatKeyword .column
    let ifNotExists ← eatKeywords [.«if», .not, .«exists»]
    let column ← parseColumnSpec grammar
    pure (.alterTable ⟨ifExists, name, ifNotExists, column⟩)
  else
    err "the only ALTER TABLE action Ferrite v1 supports is ADD COLUMN (no DROP COLUMN, RENAME, ALTER COLUMN or constraint actions)"

def parseCreateIndex : Parse Statement := do
  let unique ← eatKeyword .unique
  expectKeyword .index
  let ifNotExists ← eatKeywords [.«if», .not, .«exists»]
  let name ← parseIdentifier
  expectKeyword .on
  let table ← parseObjectName
  let columns ← parseColumnList
  pure (.createIndex ⟨ifNotExists, unique, name, table, columns⟩)

def parseCascade : Parse Bool := do
  if ← eatKeyword .cascade then pure true
  else do
    let _ ← eatKeyword .restrict
    pure false

def parseDropTable : Parse Statement := do
  advance
  let ifExists ← eatKeywords [.«if», .«exists»]
  let names ← commaSeparated parseObjectName
  let cascade ← parseCascade
  pure (.dropTable ⟨ifExists, names, cascade⟩)

def parseDropProcedure : Parse Statement := do
  advance
  let ifExists ← eatKeywords [.«if», .«exists»]
  let name ← parseObjectName
  pure (.dropProcedure ⟨ifExists, name⟩)

def parseDropTrigger : Parse Statement := do
  advance
  let ifExists ← eatKeywords [.«if», .«exists»]
  let name ← parseIdentifier
  expectKeyword .on
  let table ← parseObjectName
  pure (.dropTrigger ⟨ifExists, name, table⟩)

def parseDropIndex : Parse Statement := do
  advance
  let ifExists ← eatKeywords [.«if», .«exists»]
  let name ← parseIdentifier
  pure (.dropIndex ⟨ifExists, name⟩)

def parseDrop : Parse Statement := do
  expectKeyword .drop
  match ← peek with
  | .keyword .table => parseDropTable
  | .keyword .procedure | .keyword .function => parseDropProcedure
  | .keyword .trigger => parseDropTrigger
  | .keyword .index => parseDropIndex
  | _ => expected "\x60TABLE\x60, \x60INDEX\x60, \x60PROCEDURE\x60 or \x60TRIGGER\x60"

/-! ## Procedures and triggers -/

/-- `PROCEDURE`, or `FUNCTION` for it. -/
def expectProcedure : Parse Unit := do
  if ← eatKeyword .procedure then pure () else expectKeyword .function

def parseProcParam : Parse ProcParam := do
  let name ← parseIdentifier
  let dataType ← parseDataType
  pure ⟨name, dataType⟩

def parseProcParams : Parse (List ProcParam) := do
  if (← peek) = .rParen then pure [] else commaSeparated parseProcParam

def parseCreateProcedure (orReplace : Bool) : Parse Statement := do
  expectProcedure
  let name ← parseObjectName
  expect .lParen
  let params ← parseProcParams
  expect .rParen
  let _ ← eatKeyword .as
  expectKeyword .begin
  let body ← grammar.procBlock [.«end»]
  if body.isEmpty then err "a procedure body must contain at least one statement"
  else do
    expectKeyword .«end»
    pure (.createProcedure orReplace name params body)

/-- One more statement of a block, unless one of the words that end it comes next. -/
def procBlockStep (terminators : List Keyword) (body : List ProcStatement) :
    Parse (List ProcStatement ⊕ List ProcStatement) := do
  match ← peek with
  | .eof => expected "\x60END\x60 closing the procedure body"
  | token =>
    if terminators.any fun word => token = .keyword word then pure (.inr body)
    else do
      let statement ← grammar.procStatement
      expect .semi
      pure (.inl (body ++ [statement]))

def parseProcBlock (terminators : List Keyword) : Parse (List ProcStatement) :=
  Reader.loop (procBlockStep grammar terminators) []

def parseReturn : Parse ProcStatement := do
  advance
  if (← peek) = .semi then pure (.return none) else (fun value => .return (some value)) <$> parseExpr grammar

def parseRaise : Parse ProcStatement := do
  advance
  .raise <$> parseExpr grammar

def parseIfBranch : Parse (Expr × List ProcStatement) := do
  let condition ← parseExpr grammar
  expectKeyword .«then»
  let block ← grammar.procBlock [.elsif, .«else», .«end»]
  pure (condition, block)

/-- The branches of an `IF` so far. -/
structure Branches where
  branches : List (Expr × List ProcStatement)
  elseBranch : Option (List ProcStatement)

/-- A later `ELSE` takes the place of an earlier one. -/
def branchesStep (seen : Branches) : Parse (Branches ⊕ Branches) := do
  if ← eatKeyword .elsif then do
    let branch ← parseIfBranch grammar
    pure (.inl { seen with branches := seen.branches ++ [branch] })
  else if ← eatKeyword .«else» then do
    let block ← grammar.procBlock [.«end»]
    pure (.inl { seen with elseBranch := some block })
  else pure (.inr seen)

def parseIf : Parse ProcStatement := do
  advance
  let branch ← parseIfBranch grammar
  let all ← Reader.loop (branchesStep grammar) ⟨[branch], none⟩
  expectKeyword .«end»
  expectKeyword .«if»
  pure (.if all.branches all.elseBranch)

def parseTiming : Parse TriggerTiming := do
  if ← eatKeyword .before then pure .before
  else if ← eatKeyword .after then pure .after
  else expected "\x60BEFORE\x60 or \x60AFTER\x60"

def parseTriggerEvent : Parse TriggerEvent := do
  if ← eatKeyword .insert then pure .insert
  else if ← eatKeyword .update then pure .update
  else if ← eatKeyword .delete then pure .delete
  else expected "\x60INSERT\x60, \x60UPDATE\x60 or \x60DELETE\x60"

def triggerEventsStep (events : List TriggerEvent) : Parse (List TriggerEvent ⊕ List TriggerEvent) := do
  let event ← parseTriggerEvent
  if events.contains event then err "duplicate trigger event"
  else if ← eatKeyword .or then pure (.inl (events ++ [event]))
  else pure (.inr (events ++ [event]))

def parseForEach : Parse Bool := do
  if ← eatKeywords [.«for», .each] then
    if ← eatKeyword .row then pure true
    else if ← eatKeyword .statement then pure false
    else expected "\x60ROW\x60 or \x60STATEMENT\x60"
  else pure false

def parseCondition : Parse Expr := do
  expect .lParen
  let expr ← parseExpr grammar
  expect .rParen
  pure expr

def parseCreateTrigger : Parse Statement := do
  expectKeyword .trigger
  let name ← parseIdentifier
  let timing ← parseTiming
  let events ← Reader.loop triggerEventsStep []
  expectKeyword .on
  let table ← parseObjectName
  let forEachRow ← parseForEach
  let condition ← clause .when (parseCondition grammar)
  expectKeyword .execute
  expectProcedure
  let procedure ← parseObjectName
  expect .lParen
  let args ← parseExprsInParens grammar
  pure (.createTrigger ⟨name, timing, events, table, forEachRow, condition, procedure, args⟩)

/-! ## All of them -/

def parseCreate : Parse Statement := do
  expectKeyword .create
  let orReplace ← eatKeywords [.or, .replace]
  match ← peek, orReplace with
  | .keyword .table, false => parseCreateTable grammar
  | .keyword .procedure, _ | .keyword .function, _ => parseCreateProcedure grammar orReplace
  | .keyword .trigger, false => parseCreateTrigger grammar
  | .keyword .index, false | .keyword .unique, false => parseCreateIndex
  | _, _ => expected "\x60TABLE\x60, \x60INDEX\x60, \x60PROCEDURE\x60 or \x60TRIGGER\x60"

/-- `TRANSACTION` and `WORK` after the verb say nothing. -/
def parseTransaction (statement : Statement) : Parse Statement := do
  advance
  if ← eatKeyword .transaction then pure statement
  else do
    let _ ← eatKeyword .work
    pure statement

def parseStart : Parse Statement := do
  advance
  expectKeyword .transaction
  pure .begin

def parseStatement : Parse Statement := do
  match ← peek with
  | .keyword .create => parseCreate grammar
  | .keyword .alter => parseAlter grammar
  | .keyword .drop => parseDrop
  | .keyword .select | .keyword .«with» | .lParen => .query <$> grammar.query
  | .keyword .insert => parseInsert grammar
  | .keyword .update => parseUpdate grammar
  | .keyword .delete => parseDelete grammar
  | .keyword .call => parseCall grammar
  | .keyword .begin => parseTransaction .begin
  | .keyword .start => parseStart
  | .keyword .commit | .keyword .«end» => parseTransaction .commit
  | .keyword .rollback => parseTransaction .rollback
  | _ => expected "the start of a statement"

def parseProcStatement : Parse ProcStatement := do
  match ← peek with
  | .keyword .«return» => parseReturn grammar
  | .keyword .raise => parseRaise grammar
  | .keyword .«if» => parseIf grammar
  | _ => .sql <$> parseStatement grammar

/-- One more statement; a semicolon stands between two, and any number elsewhere. -/
def statementsStep (out : List Statement) : Parse (List Statement ⊕ List Statement) := do
  if ← eat .semi then pure (.inl out)
  else if (← peek) = .eof then pure (.inr out)
  else do
    let statement ← parseStatement grammar
    if (← peek) = .eof then pure (.inr (out ++ [statement]))
    else if ← eat .semi then pure (.inl (out ++ [statement]))
    else expected "\x60;\x60 between statements"

def parseStatements : Parse (List Statement) := Reader.loop (statementsStep grammar) []

/-! ## Depth -/

/-- The cap on nesting. -/
def maxDepth : Nat := 100

/-- What `enter` says beyond the cap. -/
def tooDeep {α : Type} : Parse α := err "query nesting is too deep"

/-- The grammar with no level left. -/
def exhausted : Grammar where
  subexpr _ := tooDeep
  climb := climb (fun _ => tooDeep) fun _ _ _ => tooDeep
  operand := tooDeep
  query := tooDeep
  setExpr := tooDeep
  procBlock _ := tooDeep
  procStatement := tooDeep

def parseSubexpr (minPrecedence : Nat) : Parse Expr := do
  let left ← grammar.operand
  grammar.climb minPrecedence left

/-- An operator other than a run takes a level and keeps it until the loop ends. -/
def parseFold (minPrecedence : Nat) (left : Expr) (precedence : Nat) : Parse Expr := do
  let folded ← parseInfix grammar left precedence
  grammar.climb minPrecedence folded

/-- The grammar one level up: each production enters, and goes on with the one below. -/
def enter : Grammar where
  subexpr := parseSubexpr grammar
  climb := climb (parseSubexpr grammar) (parseFold grammar)
  operand := parsePrefixInner alphabet grammar
  query := parseQuery grammar
  setExpr := parseSetExpr grammar
  procBlock := parseProcBlock grammar
  procStatement := parseProcStatement grammar

/-- The grammar with that many levels left. -/
def level : Nat → Grammar
  | 0 => exhausted
  | levels + 1 => enter alphabet (level levels)

end Parser

/-- The statements of a text. -/
def parse (alphabet : Alphabet) (text : String) : Except ParseError (List Tree.Statement) := do
  let tokens ← tokenize alphabet text
  let last := (tokens.getLast?.map SpannedToken.offset).getD 0
  Prod.fst <$> (Parser.parseStatements (Parser.level alphabet Parser.maxDepth)).run ⟨tokens, last⟩

end Ferrite
