import Ferrite.Exec.Planner

/-!
# The executor

`ferrite-exec/src/executor.rs` with the permission and trigger registry of
`ferrite-proc`. A statement reads its rows from storage, row by row, reconciles each
with the schema its plan was built against, and writes back one row at a time; an
error leaves what was written before it to the transaction.
-/

namespace Ferrite.Exec

open Logical Catalog Sql Prog

/-! ## Permissions and triggers -/

/-- A caller's public key. -/
abbrev Identity := BitVec 256

inductive Permission where
  | connect
  | createTable
  | select
  | insert
  | update
  | delete
  | execute
  | admin
deriving DecidableEq

def Permission.debug : Permission → String
  | .connect => "Connect"
  | .createTable => "CreateTable"
  | .select => "Select"
  | .insert => "Insert"
  | .update => "Update"
  | .delete => "Delete"
  | .execute => "Execute"
  | .admin => "Admin"

inductive TriggerEvent where
  | insert
  | update
  | delete
deriving DecidableEq

/-- What a `BEFORE` trigger decides; it refuses by failing. -/
inductive ProcDecision where
  | allow
  | replace (row : Row)
  | skip

/-- What a trigger or procedure is handed. -/
structure ProcContext where
  identity : Identity
  txn : TxnId
  table : Option (TableId × String)
  event : Option TriggerEvent
  oldRow : Option Row

structure Procedure where
  requiredPermission : Permission
  body : ProcContext → List Value → Except FerriteError Value

/-- Roles, triggers and procedures, fixed when the server starts. -/
structure ProcRegistry where
  roles : Identity → List (List Permission)
  triggers : TableId → TriggerEvent → List (ProcContext → Row → Except FerriteError ProcDecision)
  procedures : String → Option Procedure

namespace ProcRegistry

variable (procs : ProcRegistry)

/-- A role grants a permission explicitly or by `Admin`. -/
def hasPermission (identity : Identity) (permission : Permission) : Bool := (procs.roles identity).any fun role =>
    role.any fun held => held == permission || held == .admin

/-- Sixty-four hexadecimal digits. -/
def hex (identity : Identity) : String :=
  let digits := Nat.toDigits 16 identity.toNat
  .ofList (List.replicate (64 - digits.length) '0' ++ digits)

def authorize (identity : Identity) (permission : Permission) : Except FerriteError Unit :=
  if procs.hasPermission identity permission then .ok ()
  else .error (.permissionDenied s!"identity {hex identity} lacks {permission.debug}")

/-- Run triggers in order; a replacement is what the next one sees. -/
def fire (context : ProcContext) (row : Row) :
    Option Row → List (ProcContext → Row → Except FerriteError ProcDecision) → Except FerriteError ProcDecision
  | none, [] => .ok .allow
  | some new, [] => .ok (.replace new)
  | replaced, trigger :: rest => do
    match ← trigger context (replaced.getD row) with
    | .allow => fire context row replaced rest
    | .skip => pure .skip
    | .replace new => fire context row (some new) rest

def fireBefore (context : ProcContext) (event : TriggerEvent) (row : Row) : Except FerriteError ProcDecision :=
  match context.table with
  | none => .ok .allow
  | some (table, _) => fire context row none (procs.triggers table event)

def call (context : ProcContext) (name : String) (args : List Value) : Except FerriteError Value :=
  match procs.procedures name with
  | none => .error (.exec s!"no such procedure: {name}")
  | some procedure => do
    procs.authorize context.identity procedure.requiredPermission
    procedure.body context args

end ProcRegistry

/-! ## Rows -/

/-- The value a column has in a row written before it existed. -/
def filler (column : ColumnDef) : Value := column.constantDefault.getD .null

/-- Append the values a stored row is missing; a longer row is left alone. -/
def fillAddedColumns (schema : Schema) (row : Row) : Row :=
  ⟨row.values ++ (schema.columns.drop row.values.length).map filler⟩

/-- Implicit widening only. -/
def widen : Value → DataType → Option Value
  | .int4 value, .int8 => some (.int8 (.ofInt value.toInt))
  | .int4 value, .float8 => some (.float8 (Float8.ofInt value.toInt))
  | .int8 value, .float8 => some (.float8 (Float8.ofInt value.toInt))
  | _, _ => none

/-- Nullability and type of one value, widened where that is allowed. -/
def conformValue (tableName : String) (column : ColumnDef) (value : Value) : Except FerriteError Value :=
  match value.dataType with
  | none =>
    if column.nullable then .ok value
    else .error (.exec s!"{tableName}.{column.name} is not nullable")
  | some actual =>
    if actual = column.dataType then .ok value
    else
      match widen value column.dataType with
      | some widened => .ok widened
      | none => .error (.typeMismatch column.dataType actual)

/-- Arity, nullability and types of a row before it reaches storage. -/
def conformRow (schema : Schema) (row : Row) (tableName : String) : Except FerriteError Row :=
  if row.values.length ≠ schema.columns.length then
    .error (.exec s!"{tableName} has {schema.columns.length} columns, got a row of {row.values.length}")
  else do
    let values ← (schema.columns.zip row.values).mapM fun pair =>
      conformValue tableName pair.1 pair.2
    pure ⟨values⟩

/-- Assignments read the pre-image and write into a copy of it. -/
def assign (preimage : Row) (candidate : Row) : List (Nat × Scalar) → Except FerriteError Row
  | [] => .ok candidate
  | (position, scalar) :: rest => do
    let value ← scalar preimage
    if position < candidate.values.length then
      assign preimage ⟨candidate.values.set position value⟩ rest
    else .error (.exec s!"column {position} out of range")

/-! ## Statements -/

/-- A row as it flows through the plan, with its identity in storage. -/
structure Tuple where
  rid : RowId
  row : Row
deriving DecidableEq

/-- Outcome of one statement. -/
inductive ExecResult where
  | rows (schema : Schema) (rows : List Row)
  | affected (count : Nat)
  | value (value : Value)

/-- One caller's execution context; `maxRows = 0` means no limit. -/
structure Session where
  procs : ProcRegistry
  identity : Identity
  maxRows : Nat

namespace Session

variable (session : Session)

def authorize (permission : Permission) : Action Unit :=
  ofExcept (session.procs.authorize session.identity permission)

/-- Whether a node may hold that many rows. -/
def admitRows (rows : Nat) : Action Unit :=
  if session.maxRows = 0 ∨ rows ≤ session.maxRows then pure ()
  else
    .fail (.resourceLimit
      s!"a query materialized more than {session.maxRows} rows; narrow it with a WHERE clause, or raise the executor row budget")

/-- Whether the statement still has time. -/
def tick : Action Unit := Action.attempted .tick

/-- Guard against a plan made before a schema change. -/
def checkSchema (table : TableId) (tableName : String) (planned : Schema) : Action Unit := do
  let cache ← Action.readCache
  let schema ← ofExcept (cache.tableSchema table)
  if schema.eq planned then pure ()
  else .fail (.plan s!"stale plan: the schema of {tableName} changed since planning")

/-- What the predicate of a scan says of a row. -/
def selects (filter : Option Predicate) (row : Row) : Except FerriteError Bool :=
  match filter with
  | some predicate => predicate row
  | none => .ok true

def seqScan (txn : TxnId) (source : Source) : Action (List Tuple) :=
  Action.forEachRow txn source.table [] fun entry out => do
    tick
    let row := fillAddedColumns source.schema entry.2
    if ← ofExcept (selects source.filter row) then
      let out := out ++ [⟨entry.1, row⟩]
      session.admitRows out.length
      pure (.yield out)
    else pure (.yield out)

/-- Materialize the rows of a source. -/
def stream (txn : TxnId) (source : Source) : Action (List Tuple) := do
  checkSchema source.table source.tableName source.schema
  let rows ← session.seqScan txn source
  session.admitRows rows.length
  pure rows

def streamEach (txn : TxnId) : List Source → Action (List (List Row))
  | [] => pure []
  | source :: rest => do
    let rows ← session.stream txn source
    let others ← streamEach txn rest
    pure (rows.map Tuple.row :: others)

/-- The values of a row at the conflict columns; a missing one reads as null. -/
def conflictKey (target : List Nat) (row : Row) : List Value :=
  target.map fun position => row.values[position]?.getD .null

/-- The visible row whose conflict columns equal the candidate's, if there is one. -/
def conflictingRow (txn : TxnId) (table : TableId) (schema : Schema) (target : List Nat)
    (candidate : Row) : Action (Option Tuple) := do
  let wanted := conflictKey target candidate
  if wanted.any Value.isNull then pure none
  else
    Action.forEachRow txn table none fun entry _ => do
      tick
      if keyEq (conflictKey target (fillAddedColumns schema entry.2)) wanted then
        pure (.done (some ⟨entry.1, fillAddedColumns schema entry.2⟩))
      else pure (.yield none)

/-- The row a write goes on with after the triggers, if it does. -/
def decided (decision : ProcDecision) (candidate : Row) : Option Row :=
  match decision with
  | .skip => none
  | .allow => some candidate
  | .replace row => some row

def context (txn : TxnId) (table : TableId) (tableName : String) (event : TriggerEvent)
    (oldRow : Option Row) : ProcContext :=
  ⟨session.identity, txn, some (table, tableName), some event, oldRow⟩

/-- Fire the triggers of an update, conform the row and write it. -/
def writeUpdate (txn : TxnId) (table : TableId) (tableName : String) (schema : Schema)
    (existing : Tuple) (candidate : Row) (unique : List UniqueKey) : Action Nat := do
  let decision ← ofExcept (session.procs.fireBefore
    (session.context txn table tableName .update (some existing.row)) .update candidate)
  match decided decision candidate with
  | none => pure 0
  | some row =>
    let row ← ofExcept (conformRow schema row tableName)
    Action.updateUnique txn table existing.rid row unique
    pure 1

/-- Apply the conflict action to the row already there. -/
def resolveConflict (txn : TxnId) (table : TableId) (tableName : String) (schema : Schema)
    (action : PhysConflictAction) (existing : Tuple) (excluded : Row) (unique : List UniqueKey) :
    Action Nat :=
  match action with
  | .nothing => pure 0
  | .update assignments selection => do
    let combined : Row := ⟨existing.row.values ++ excluded.values⟩
    if ← ofExcept (selects selection combined) then
      let candidate ← ofExcept (assign combined existing.row assignments)
      session.writeUpdate txn table tableName schema existing candidate unique
    else pure 0

/-- Store a row nothing conflicts with. -/
def storeRow (txn : TxnId) (table : TableId) (unique : List UniqueKey) (row : Row) : Action Nat := do
  let _ ← Action.insertUnique txn table row unique
  pure 1

/-- Insert one conformed row, or resolve its conflict. -/
def insertRow (txn : TxnId) (table : TableId) (tableName : String) (schema : Schema)
    (onConflict : Option PhysOnConflict) (unique : List UniqueKey) (row : Row) : Action Nat :=
  match onConflict with
  | none => storeRow txn table unique row
  | some clause => do
    match ← conflictingRow txn table schema clause.target row with
    | some existing => session.resolveConflict txn table tableName schema clause.action existing row unique
    | none => storeRow txn table unique row

def runInsert (txn : TxnId) (table : TableId) (tableName : String) (schema : Schema)
    (onConflict : Option PhysOnConflict) (unique : List UniqueKey) :
    List (List Scalar) → Nat → Action Nat
  | [], affected => pure affected
  | exprs :: rest, affected => do
    tick
    let values ← ofExcept (exprs.mapM fun scalar => scalar ⟨[]⟩)
    let decision ← ofExcept (session.procs.fireBefore
      (session.context txn table tableName .insert none) .insert ⟨values⟩)
    match decided decision ⟨values⟩ with
    | none => runInsert txn table tableName schema onConflict unique rest affected
    | some row =>
      let row ← ofExcept (conformRow schema row tableName)
      let count ← session.insertRow txn table tableName schema onConflict unique row
      runInsert txn table tableName schema onConflict unique rest (affected + count)

def runUpdate (txn : TxnId) (table : TableId) (tableName : String) (schema : Schema)
    (assignments : List (Nat × Scalar)) (unique : List UniqueKey) : List Tuple → Nat → Action Nat
  | [], affected => pure affected
  | tuple :: rest, affected => do
    tick
    let candidate ← ofExcept (assign tuple.row tuple.row assignments)
    let count ← session.writeUpdate txn table tableName schema tuple candidate unique
    runUpdate txn table tableName schema assignments unique rest (affected + count)

/-- Whether a deletion goes on after its triggers; a row cannot be rewritten then. -/
def deletes (tableName : String) : ProcDecision → Except FerriteError Bool
  | .skip => .ok false
  | .allow => .ok true
  | .replace _ => .error (.exec s!"a BEFORE DELETE trigger on {tableName} returned Replace")

def runDelete (txn : TxnId) (table : TableId) (tableName : String) : List Tuple → Nat → Action Nat
  | [], affected => pure affected
  | tuple :: rest, affected => do
    tick
    let decision ← ofExcept (session.procs.fireBefore
      (session.context txn table tableName .delete (some tuple.row)) .delete tuple.row)
    if ← ofExcept (deletes tableName decision) then
      Action.delete txn table tuple.rid
      runDelete txn table tableName rest (affected + 1)
    else runDelete txn table tableName rest affected

/-- An upsert can write an existing row. -/
def isUpsert : Option PhysOnConflict → Bool
  | some ⟨_, .update _ _⟩ => true
  | _ => false

/-- An upsert needs the permission an `UPDATE` would need as well. -/
def authorizeInsert (onConflict : Option PhysOnConflict) : Action Unit := do
  session.authorize .insert
  if isUpsert onConflict then session.authorize .update else pure ()

/-- Run one statement under `txn`. -/
def execute (txn : TxnId) : PhysicalPlan → Action ExecResult
  | .insert table tableName schema rows onConflict unique => do
    session.authorizeInsert onConflict
    checkSchema table tableName schema
    let affected ← session.runInsert txn table tableName schema onConflict unique rows 0
    pure (.affected affected)
  | .update table tableName schema source assignments unique => do
    session.authorize .update
    checkSchema table tableName schema
    let targets ← session.stream txn source
    let affected ← session.runUpdate txn table tableName schema assignments unique targets 0
    pure (.affected affected)
  | .delete table tableName schema source => do
    session.authorize .delete
    checkSchema table tableName schema
    let targets ← session.stream txn source
    let affected ← session.runDelete txn table tableName targets 0
    pure (.affected affected)
  | .callProcedure name args => do
    let values ← ofExcept (args.mapM fun scalar => scalar ⟨[]⟩)
    let value ← ofExcept (session.procs.call ⟨session.identity, txn, none, none, none⟩ name values)
    pure (.value value)
  | .query sources output rows => do
    session.authorize .select
    let streams ← session.streamEach txn sources
    let rows ← ofExcept (rows streams)
    pure (.rows output rows)

end Session
end Ferrite.Exec
