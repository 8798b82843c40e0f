import Ferrite.Catalog.System
import Ferrite.Sql.Statement

/-!
# Plans

The part of `ferrite-planner` between a statement and the catalog: which table a name
means, which columns it has, and which unique keys a write has to respect. Each
lookup takes the cache lock on its own. An index scan without an index provider is a
filtered scan of the table, so a source is always a table scan with a filter.
-/

namespace Ferrite.Exec

open Logical Catalog Sql

/-- Schema unqualified names resolve to. -/
def defaultNamespace : String := "public"

/-- A table scan with the schema the plan was built against. -/
structure Source where
  table : TableId
  tableName : String
  schema : Schema
  filter : Option Predicate

inductive PhysConflictAction where
  | nothing
  | update (assignments : List (Nat × Scalar)) (selection : Option Predicate)

structure PhysOnConflict where
  target : List Nat
  action : PhysConflictAction

inductive PhysicalPlan where
  | query (sources : List Source) (output : Schema) (rows : List (List Row) → Except FerriteError (List Row))
  | insert (table : TableId) (tableName : String) (schema : Schema) (rows : List (List Scalar))
      (onConflict : Option PhysOnConflict) (unique : List UniqueKey)
  | update (table : TableId) (tableName : String) (schema : Schema) (source : Source)
      (assignments : List (Nat × Scalar)) (unique : List UniqueKey)
  | delete (table : TableId) (tableName : String) (schema : Schema) (source : Source)
  | callProcedure (name : String) (args : List Scalar)

structure TableSource where
  id : TableId
  name : String
  schema : Schema

def resolve (table : ObjectName) : Action TableSource := do
  let (namespaceName, name) := table.split defaultNamespace
  let cache ← Action.readCache
  match cache.tableId namespaceName name with
  | none => .fail (.tableNotFound s!"{namespaceName}.{name}")
  | some id =>
    let cache ← Action.readCache
    let schema ← Prog.ofExcept (cache.tableSchema id)
    pure ⟨id, name, schema⟩

/-- The unique keys of a table's indexes; one naming a column the table does not have
is left out. -/
def uniqueKeysOf (schema : Schema) (indexes : List IndexDef) : List UniqueKey := indexes.filterMap fun index =>
    if index.unique then
      match schema.columnIndexes index.columns with
      | some positions => if positions.isEmpty then none else some ⟨index.name, positions⟩
      | none => none
    else none

def uniqueKeys (table : TableId) (schema : Schema) : Action (List UniqueKey) := do
  let cache ← Action.readCache
  pure (uniqueKeysOf schema (cache.indexesFor table))

/-- The position of each named column. -/
def positionsOf (schema : Schema) (names : List String) : Except FerriteError (List Nat) := names.mapM fun name =>
    match schema.columnIndex name with
    | some position => .ok position
    | none => .error (.columnNotFound name)

/-- The declared type of the column at a position. -/
def typeAt (schema : Schema) (position : Nat) : DataType :=
  match schema.columns[position]? with
  | some column => column.dataType
  | none => .text

def bindAssignments (schema scope : Schema) (assignments : List Assignment) :
    Except FerriteError (List (Nat × Scalar)) :=
  assignments.mapM fun assignment =>
    match schema.columnIndex assignment.column with
    | none => .error (.columnNotFound assignment.column)
    | some position => do
      let value ← assignment.value scope (typeAt schema position)
      pure (position, value)

def bindCondition (scope : Schema) : Option Condition → Except FerriteError (Option Predicate)
  | none => .ok none
  | some condition => some <$> condition scope

/-- The value a column takes when a write does not supply one. `CURRENT_TIMESTAMP` is
resolved here, once for the statement. -/
def defaultExpr : Option ColumnDefault → Action Scalar
  | none => pure fun _ => .ok .null
  | some (.constant value) => pure fun _ => .ok value
  | some .currentTimestamp => do
    let time ← Prog.ask .wallClock
    pure fun _ => .ok (.timestamp time)

def defaultExprs : List ColumnDef → Action (List Scalar)
  | [] => pure []
  | column :: rest => do
    let scalar ← defaultExpr column.default
    let others ← defaultExprs rest
    pure (scalar :: others)

/-- One row of `VALUES`: every column starts at its default. -/
def bindRow (source : TableSource) (targets : List Nat) (defaults : List Scalar) (exprs : List Expr) :
    Except FerriteError (List Scalar) :=
  if exprs.length ≠ targets.length then
    .error (.plan s!"INSERT into {source.name} expects {targets.length} values per row, got {exprs.length}")
  else
    (targets.zip exprs).foldlM
      (fun row target => do
        let scalar ← target.2 ⟨[]⟩ (typeAt source.schema target.1)
        pure (row.set target.1 scalar))
      defaults

/-- The row an assignment of `ON CONFLICT` reads: the existing one, then the excluded one. -/
def conflictScope (schema : Schema) : Schema := ⟨schema.columns ++ schema.columns⟩

def conflictTarget (source : TableSource) (clause : OnConflict) : Action (List String) := do
  if clause.target.isEmpty then
    let cache ← Action.readCache
    match (cache.indexesFor source.id).find? IndexDef.unique with
    | some index => pure index.columns
    | none =>
      .fail (.plan s!"no unique key is recorded on {source.name}, so ON CONFLICT has no target; write ON CONFLICT (columns) explicitly")
  else pure clause.target

def bindConflictAction (schema : Schema) : InsertConflictAction → Except FerriteError PhysConflictAction
  | .nothing => .ok .nothing
  | .update assignments selection => do
    let assignments ← bindAssignments schema (conflictScope schema) assignments
    let selection ← bindCondition (conflictScope schema) selection
    pure (.update assignments selection)

def buildOnConflict (source : TableSource) (clause : OnConflict) : Action PhysOnConflict := do
  let names ← conflictTarget source clause
  let target ← Prog.ofExcept (positionsOf source.schema names)
  let action ← Prog.ofExcept (bindConflictAction source.schema clause.action)
  pure ⟨target, action⟩

/-- The columns an insert supplies: all of them unless it names some. -/
def insertTargets (schema : Schema) (columns : List String) : Except FerriteError (List Nat) :=
  if columns.isEmpty then .ok (List.range schema.columns.length) else positionsOf schema columns

def planConflict (source : TableSource) : Option OnConflict → Action (Option PhysOnConflict)
  | none => pure none
  | some clause => do
    let bound ← buildOnConflict source clause
    pure (some bound)

def planInsert (stmt : Insert) : Action PhysicalPlan := do
  let source ← resolve stmt.table
  let targets ← Prog.ofExcept (insertTargets source.schema stmt.columns)
  let defaults ← defaultExprs source.schema.columns
  let rows ← Prog.ofExcept (stmt.values.mapM (bindRow source targets defaults))
  let onConflict ← planConflict source stmt.onConflict
  let unique ← uniqueKeys source.id source.schema
  pure (.insert source.id source.name source.schema rows onConflict unique)

/-- The rows of one table a condition selects. -/
def filteredScan (source : TableSource) (selection : Option Condition) : Except FerriteError Source := do
  let filter ← bindCondition source.schema selection
  pure ⟨source.id, source.name, source.schema, filter⟩

def planUpdate (stmt : Update) : Action PhysicalPlan := do
  let source ← resolve stmt.table
  let assignments ← Prog.ofExcept (bindAssignments source.schema source.schema stmt.assignments)
  let scan ← Prog.ofExcept (filteredScan source stmt.selection)
  let unique ← uniqueKeys source.id source.schema
  pure (.update source.id source.name source.schema scan assignments unique)

def planDelete (stmt : Delete) : Action PhysicalPlan := do
  let source ← resolve stmt.table
  let scan ← Prog.ofExcept (filteredScan source stmt.selection)
  pure (.delete source.id source.name source.schema scan)

def resolveEach : List ObjectName → Action (List TableSource)
  | [] => pure []
  | table :: rest => do
    let source ← resolve table
    let others ← resolveEach rest
    pure (source :: others)

/-- A table without a filter of its own is scanned whole. -/
def sourcesOf (tables : List TableSource) (filters : List (Option Predicate)) : List Source :=
  tables.zipIdx.map fun table =>
    ⟨table.1.id, table.1.name, table.1.schema, (filters[table.2]?).join⟩

def planQuery (query : Query) : Action PhysicalPlan := do
  let tables ← resolveEach query.tables
  let shape ← Prog.ofExcept (query.shape (tables.map TableSource.schema))
  pure (.query (sourcesOf tables shape.filters) shape.output shape.rows)

/-- Plan a statement that is neither definition nor transaction control. -/
def plan : Statement → Action PhysicalPlan
  | .query query => planQuery query
  | .insert stmt => planInsert stmt
  | .update stmt => planUpdate stmt
  | .delete stmt => planDelete stmt
  | .call call => do
    let args ← Prog.ofExcept (call.args.mapM fun arg => arg ⟨[]⟩ .text)
    pure (.callProcedure call.name args)
  | .createTable _ | .alterTable _ | .dropTable _ | .createIndex _ | .dropIndex _ =>
    .fail (.plan "DDL does not go through the planner; call the catalog directly")
  | .begin | .commit | .rollback =>
    .fail (.plan "transaction control does not go through the planner")
  | .procedural =>
    .fail (.plan "procedures and triggers are native Rust closures registered in ferrite-proc at startup; there is no procedural language in v1")

end Ferrite.Exec
