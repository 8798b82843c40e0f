import Ferrite.Exec.Executor
import Ferrite.Protocol.Session

/-!
# The engine session

`SessionHandle` of `ferrite-server/src/engine.rs`: a statement runs in the
transaction the connection opened with `BEGIN`, or in one of its own. Definition
statements go through the system catalog, everything else through planner and
executor.
-/

namespace Ferrite.Server

open Logical Catalog Sql Exec Prog
open Protocol (QueryResult CommandTag FieldDescription SqlText)

/-- What all sessions of a server share besides the database. Timeouts are in
nanoseconds. -/
structure Inner where
  formats : TextFormats
  procs : ProcRegistry
  maxRows : Nat
  transactionTimeout : Option Nat

namespace Inner

variable (inner : Inner)

/-- Undo what an aborted transaction did to the cache, if it did anything. -/
def reloadIf (ddl : Bool) : Action Unit := if ddl then reload inner.formats else pure ()

/-- Roll back a transaction that has been open past its budget. -/
def expireStaleTransaction (txn : TxnId) : Action Unit := do
  match inner.transactionTimeout with
  | none => pure ()
  | some budget =>
    let state ← getState
    match state.openedAt with
    | none => pure ()
    | some openedAt =>
      let age := (← ask .now) - openedAt
      if age < budget then pure ()
      else
        setState ⟨none, none, false⟩
        let _ ← (Action.abort txn).attempt
        inner.reloadIf state.ddl
        .fail (.timeout
          s!"the transaction was open for {age}ns, past the {budget}ns budget, and has been              rolled back")

/-- Run `body` in the session's transaction, or in one of its own. -/
def inTransaction {α : Type} (body : TxnId → Action α) : Action α := do
  let state ← getState
  match state.txn with
  | some txn =>
    inner.expireStaleTransaction txn
    Action.snapshot txn
    body txn
  | none =>
    let txn ← Action.begin
    match ← (body txn).attempt with
    | .ok value =>
      Action.commit txn
      pure value
    | .error e =>
      let _ ← (Action.abort txn).attempt
      .fail e

def begin : Action QueryResult := do
  let state ← getState
  if state.txn.isNone then
    let txn ← Action.begin
    let now ← ask .now
    setState { state with txn := some txn, openedAt := some now }
    pure ((QueryResult.command .begin).withTransaction .inTransaction)
  else pure ((QueryResult.command .begin).withTransaction .inTransaction)

/-- The session forgets its transaction before storage is asked to commit it. -/
def commit : Action QueryResult := do
  let state ← getState
  match state.txn with
  | none => pure ((QueryResult.command .commit).withTransaction .idle)
  | some txn =>
    setState ⟨none, none, false⟩
    Action.commit txn
    pure ((QueryResult.command .commit).withTransaction .idle)

def rollback : Action QueryResult := do
  let state ← getState
  match state.txn with
  | none => pure ((QueryResult.command .rollback).withTransaction .idle)
  | some txn =>
    setState { state with txn := none, openedAt := none }
    let _ ← (Action.abort txn).attempt
    setState ⟨none, none, false⟩
    inner.reloadIf state.ddl
    pure ((QueryResult.command .rollback).withTransaction .idle)

/-! ## Definition statements -/

def commandOk (tag : String) : QueryResult := .command (.other tag)

/-- What `{:?}` tells apart in a key: everything but the payload of a NaN. -/
def debugKey (key : List Value) : List Value := key.map fun value =>
    match value with
    | .float8 bits => if Float8.isNaN bits then .float8 0x7FF8000000000000 else value
    | _ => value

/-- Refuse a unique index the stored rows already violate. -/
def checkUniqueHolds (txn : TxnId) (table : TableId) (index : String) (columns : List String) :
    Action Unit := do
  let cache ← Action.readCache
  let schema ← ofExcept (cache.tableSchema table)
  let positions ← ofExcept (positionsOf schema columns)
  let key : UniqueKey := ⟨index, positions⟩
  let _ ← Action.forEachRow txn table ([] : List (List Value)) fun entry seen => do
    match key.extract entry.2 with
    | none => pure (.yield seen)
    | some values =>
      if seen.contains (debugKey values) then .fail (key.violation values)
      else pure (.yield (seen ++ [debugKey values]))

/-- Refuse a column whose rows would contradict it. -/
def checkAddable (txn : TxnId) (table : TableId) (namespaceName name : String) (column : ColumnDef) :
    Action Unit := do
  if column.nullable || column.constantDefault.isSome then pure ()
  else
    Action.attempted (.openScan txn table)
    match ← (Action.attempted (.scanNext txn table 0)).attempt with
    | .ok none => pure ()
    | _ =>
      .fail (.invalidDefinition
        s!"column \x60{column.name}\x60 of {namespaceName}.{name} is NOT NULL and the table has rows: add it with a constant DEFAULT, or in two steps")

/-- A unique index of a new table, unless its name is taken. -/
def createKey (txn : TxnId) (namespaceName : String) (id : TableId) (index : String)
    (columns : List String) : Action Unit := do
  let cache ← Action.readCache
  if (cache.findIndex namespaceName index).isNone then
    let _ ← createIndexIn txn index id columns true
  else pure ()

def createKeys (txn : TxnId) (namespaceName name : String) (id : TableId) : List (List String × Nat) → Action Unit
  | [] => pure ()
  | (columns, n) :: rest => do
    createKey txn namespaceName id s!"{name}_key{n}" columns
    createKeys txn namespaceName name id rest

def createTable (create : CreateTable) (txn : TxnId) : Action QueryResult := do
  let (namespaceName, name) := create.name.split defaultNamespace
  let cache ← Action.readCache
  if (cache.tableId namespaceName name).isSome then
    if create.ifNotExists then pure (commandOk "CREATE TABLE")
    else .fail (.objectAlreadyExists s!"{namespaceName}.{name}")
  else
    let schema ← ofExcept create.toSchema
    let schema ← ofExcept (typecheckDefaults inner.formats schema)
    let id ← createTableIn inner.formats txn namespaceName name schema
    createKeys txn namespaceName name id create.uniqueKeys.zipIdx
    pure (commandOk "CREATE TABLE")

def addedColumn (alter : AlterTable) : Except FerriteError ColumnDef := do
  let column ← alter.column.toColumnDef false
  typecheckDefault inner.formats column

/-- Whether `IF NOT EXISTS` finds the column there already. -/
def columnPresent (alter : AlterTable) (id : TableId) : Action Bool := do
  if alter.ifNotExists then
    let cache ← Action.readCache
    let schema ← ofExcept (cache.tableSchema id)
    pure (schema.columnIndex alter.column.name).isSome
  else pure false

def addColumn (alter : AlterTable) (txn : TxnId) (namespaceName name : String) (id : TableId) :
    Action QueryResult := do
  if ← columnPresent alter id then pure (commandOk "ALTER TABLE")
  else
    let added ← ofExcept (inner.addedColumn alter)
    checkAddable txn id namespaceName name added
    addColumnIn inner.formats txn id added
    pure (commandOk "ALTER TABLE")

def alterTable (alter : AlterTable) (txn : TxnId) : Action QueryResult := do
  let (namespaceName, name) := alter.name.split defaultNamespace
  let cache ← Action.readCache
  match cache.tableId namespaceName name with
  | none =>
    if alter.ifExists then pure (commandOk "ALTER TABLE")
    else .fail (.tableNotFound s!"{namespaceName}.{name}")
  | some id => inner.addColumn alter txn namespaceName name id

def dropTables (ifExists : Bool) (txn : TxnId) : List ObjectName → Action Unit
  | [] => pure ()
  | table :: rest => do
    let (namespaceName, name) := table.split defaultNamespace
    let cache ← Action.readCache
    match cache.tableId namespaceName name with
    | some id =>
      dropTableIn txn id
      dropTables ifExists txn rest
    | none =>
      if ifExists then dropTables ifExists txn rest
      else .fail (.tableNotFound s!"{namespaceName}.{name}")

/-- A unique index must hold of the rows already there. -/
def checkCreatable (create : CreateIndex) (txn : TxnId) (id : TableId) : Action Unit :=
  if create.unique then checkUniqueHolds txn id create.name create.columns else pure ()

def createIndex (create : CreateIndex) (txn : TxnId) : Action QueryResult := do
  let (namespaceName, table) := create.table.split defaultNamespace
  let cache ← Action.readCache
  match cache.tableId namespaceName table with
  | none => .fail (.tableNotFound s!"{namespaceName}.{table}")
  | some id =>
    let cache ← Action.readCache
    if (cache.findIndex namespaceName create.name).isSome then
      if create.ifNotExists then pure (commandOk "CREATE INDEX")
      else .fail (.objectAlreadyExists create.name)
    else
      checkCreatable create txn id
      let _ ← createIndexIn txn create.name id create.columns create.unique
      pure (commandOk "CREATE INDEX")

def dropIndex (drop : DropIndex) (txn : TxnId) : Action QueryResult := do
  let cache ← Action.readCache
  match cache.findIndex defaultNamespace drop.name with
  | some index =>
    dropIndexIn txn index.id
    pure (commandOk "DROP INDEX")
  | none =>
    if drop.ifExists then pure (commandOk "DROP INDEX")
    else .fail (.tableNotFound drop.name)

/-- Remember that DDL ran inside the session's own transaction. -/
def noteDdl (txn : TxnId) : Action Unit := do
  let state ← getState
  if state.txn = some txn then setState { state with ddl := true } else pure ()

/-- What a definition statement does. -/
def ddlBody (statement : Statement) (txn : TxnId) : Action QueryResult :=
  match statement with
  | .createTable create => inner.createTable create txn
  | .alterTable alter => inner.alterTable alter txn
  | .dropTable drop => do
    dropTables drop.ifExists txn drop.names
    pure (commandOk "DROP TABLE")
  | .createIndex create => createIndex create txn
  | .dropIndex drop => dropIndex drop txn
  | _ => .fail (.plan "not a DDL statement")

def ddl (statement : Statement) (txn : TxnId) : Action QueryResult := do
  noteDdl txn
  inner.ddlBody statement txn

/-! ## Statements -/

def fieldsOf (schema : Schema) : List FieldDescription :=
  schema.columns.map fun column => ⟨column.name, column.dataType⟩

/-- The command tag that names the statement. -/
def affectedTag (statement : Statement) (count : Nat) : CommandTag :=
  match statement with
  | .insert _ => .insert count
  | .update _ => .update count
  | .delete _ => .delete count
  | _ => .other s!"AFFECTED {count}"

def toWire (result : ExecResult) (statement : Statement) : QueryResult :=
  match result with
  | .rows schema rows => .ofRows (fieldsOf schema) rows
  | .affected count => .command (affectedTag statement count)
  | .value value => .ofRows [⟨"result", value.dataType.getD .text⟩] [⟨[value]⟩]

/-- Plan and run a statement that is neither definition nor transaction control. -/
def planAndExecute (caller : Identity) (statement : Statement) (txn : TxnId) : Action QueryResult := do
  let physical ← plan statement
  let result ← Session.execute ⟨inner.procs, caller, inner.maxRows⟩ txn physical
  pure (toWire result statement)

/-- Check the permission and run a definition statement. -/
def authorizedDdl (caller : Identity) (statement : Statement) (txn : TxnId) : Action QueryResult := do
  ofExcept (inner.procs.authorize caller .createTable)
  inner.ddl statement txn

def dispatch (caller : Identity) : Statement → Action QueryResult
  | .begin => begin
  | .commit => commit
  | .rollback => inner.rollback
  | .createTable create => inner.inTransaction (inner.authorizedDdl caller (.createTable create))
  | .alterTable alter => inner.inTransaction (inner.authorizedDdl caller (.alterTable alter))
  | .dropTable drop => inner.inTransaction (inner.authorizedDdl caller (.dropTable drop))
  | .createIndex create => inner.inTransaction (inner.authorizedDdl caller (.createIndex create))
  | .dropIndex drop => inner.inTransaction (inner.authorizedDdl caller (.dropIndex drop))
  | other => inner.inTransaction (inner.planAndExecute caller other)

/-- Result columns come from planning the last statement with null parameters. -/
def describeStatement (sql : SqlText) : Action (Option (List FieldDescription)) := do
  let statements ← ofExcept (sql.parse (List.replicate sql.parameters .null))
  match statements.getLast? with
  | none => pure none
  | some statement =>
    match ← (plan statement).attempt with
    | .ok (.query _ output _) => pure (some (fieldsOf output))
    | _ => pure none

/-- A connection that goes away aborts its transaction. -/
def drop : Action Unit := do
  let state ← getState
  match state.txn with
  | none => pure ()
  | some txn =>
    setState { state with txn := none }
    let _ ← (Action.abort txn).attempt
    let _ ← (inner.reloadIf state.ddl).attempt

end Inner
end Ferrite.Server
