import Ferrite.Catalog.Database
import Ferrite.Sql.Definition

/-!
# The system catalog

`ferrite-catalog/src/system.rs`: metadata stored as ordinary rows of three system
tables, through the same storage calls as user data, and an in-memory index over
it that every change updates at once, before its transaction has committed.
-/

namespace Ferrite.Catalog

open Logical Sql Prog

/-! ## Rows of the catalog tables -/

/-- The keys the catalog's own tables must not hold twice. -/
def tablesKeys : List UniqueKey :=
  [⟨"ferrite_tables_pkey", [0]⟩, ⟨"ferrite_tables_name_key", [1, 2]⟩]

def columnsKeys : List UniqueKey :=
  [⟨"ferrite_columns_pkey", [0, 1]⟩, ⟨"ferrite_columns_name_key", [0, 2]⟩]

def indexesKeys : List UniqueKey :=
  [⟨"ferrite_indexes_pkey", [0, 3]⟩, ⟨"ferrite_indexes_name_key", [2, 3]⟩]

def typeName : DataType → String
  | .boolean => "boolean"
  | .int4 => "int4"
  | .int8 => "int8"
  | .float8 => "float8"
  | .text => "text"
  | .timestamp => "timestamp"
  | .uuid => "uuid"
  | .json => "json"

def typeFromName (name : String) : Except FerriteError DataType :=
  if name = "boolean" then .ok .boolean
  else if name = "int4" then .ok .int4
  else if name = "int8" then .ok .int8
  else if name = "float8" then .ok .float8
  else if name = "text" then .ok .text
  else if name = "timestamp" then .ok .timestamp
  else if name = "uuid" then .ok .uuid
  else if name = "json" then .ok .json
  else .error (catalogError s!"unknown stored type \x60{name}\x60")

/-- Thirty-two hexadecimal digits. -/
def writeUuid (value : BitVec 128) : String :=
  let digits := Nat.toDigits 16 value.toNat
  .ofList (List.replicate (32 - digits.length) '0' ++ digits)

section

variable (formats : TextFormats)

/-- The text of a constant, per the column's type. -/
def encodeConstant : Value → DataType → Except FerriteError String
  | .boolean value, .boolean => .ok (if value then "true" else "false")
  | .int4 value, .int4 => .ok (writeInteger value.toInt)
  | .int8 value, .int8 => .ok (writeInteger value.toInt)
  | .float8 bits, .float8 => .ok (formats.writeFloat bits)
  | .text value, .text => .ok value
  | .json value, .json => .ok value
  | .timestamp value, .timestamp => .ok (writeInteger value.toInt)
  | .uuid value, .uuid => .ok (writeUuid value)
  | value, dataType =>
    .error (.invalidDefinition
      s!"a DEFAULT of {debugValue formats value} does not fit a {debugType dataType} column")

/-- `n` is null, `f:now` the current timestamp, `v:` comes before a constant. -/
def encodeDefault (default : ColumnDefault) (dataType : DataType) : Except FerriteError String :=
  match default with
  | .currentTimestamp => .ok "f:now"
  | .constant .null => .ok "n"
  | .constant value => do
    let body ← encodeConstant formats value dataType
    pure ("v:" ++ body)

/-- A signed number that fits the given width. -/
def readSigned (bits : Nat) (text : String) : Option Int := (Numeral.readInt text.toList).filter fun value =>
    decide (-2 ^ (bits - 1) ≤ value ∧ value < 2 ^ (bits - 1))

def decodeConstant (body : String) (dataType : DataType) : Except FerriteError Value :=
  let found : Option Value :=
    match dataType with
    | .boolean =>
      if body = "true" then some (.boolean true)
      else if body = "false" then some (.boolean false)
      else none
    | .int4 => (readSigned 32 body).map fun value => .int4 (.ofInt value)
    | .int8 => (readSigned 64 body).map fun value => .int8 (.ofInt value)
    | .float8 => (formats.readFloat body).map .float8
    | .text => some (.text body)
    | .json => some (.json body)
    | .timestamp => (readSigned 64 body).map fun value => .timestamp (.ofInt value)
    | .uuid =>
      ((Numeral.readNat 16 body.toList).filter fun value => decide (value < 2 ^ 128)).map
        fun value => .uuid (.ofNat 128 value)
  match found with
  | some value => .ok value
  | none => .error (catalogError s!"corrupt catalog row: bad {debugType dataType} default")

def decodeDefault (encoded : String) (dataType : DataType) : Except FerriteError ColumnDefault :=
  if encoded = "n" then .ok (.constant .null)
  else if encoded = "f:now" then .ok .currentTimestamp
  else
    match encoded.toList with
    | 'v' :: ':' :: body => .constant <$> decodeConstant formats (.ofList body) dataType
    | _ =>
      .error (catalogError s!"corrupt catalog row: unknown default encoding \x60{encoded}\x60")

end

def text (row : Row) (index : Nat) : Except FerriteError String :=
  match row.values[index]? with
  | some (.text value) => .ok value
  | _ => .error (catalogError "corrupt catalog row: expected text")

/-- A nullable text column; a missing value reads as null. -/
def optionalText (row : Row) (index : Nat) : Except FerriteError (Option String) :=
  match row.values[index]? with
  | none => .ok none
  | some .null => .ok none
  | some (.text value) => .ok (some value)
  | _ => .error (catalogError "corrupt catalog row: expected text or null")

def objectId (row : Row) (index : Nat) : Except FerriteError TableId :=
  match row.values[index]? with
  | some (.int8 value) =>
    if 0 ≤ value.toInt ∧ value.toInt < 2 ^ 32 then .ok value.toInt.toNat
    else .error (catalogError s!"corrupt catalog row: bad object id {writeInteger value.toInt}")
  | _ => .error (catalogError "corrupt catalog row: expected int8")

def ordinal (row : Row) (index : Nat) : Except FerriteError Nat :=
  match row.values[index]? with
  | some (.int4 value) =>
    if 0 ≤ value.toInt then .ok value.toInt.toNat
    else .error (catalogError s!"corrupt catalog row: bad ordinal {writeInteger value.toInt}")
  | _ => .error (catalogError "corrupt catalog row: expected int4")

def boolean (row : Row) (index : Nat) : Except FerriteError Bool :=
  match row.values[index]? with
  | some (.boolean value) => .ok value
  | _ => .error (catalogError "corrupt catalog row: expected boolean")

def toOrdinal (index : Nat) : Except FerriteError Int32 :=
  if index < 2 ^ 31 then .ok (.ofNat index) else .error (catalogError "too many columns")

/-- An object id as the catalog stores it. -/
def idValue (id : TableId) : Value := .int8 (.ofNat id)

def tableRow (id : TableId) (schema name : String) : Row := ⟨[idValue id, .text schema, .text name]⟩

def columnRow (id : TableId) (position : Int32) (column : ColumnDef) (default : Value) : Row :=
  ⟨[idValue id, .int4 position, .text column.name, .text (typeName column.dataType),
    .boolean column.nullable, default]⟩

def indexRow (id : IndexId) (table : TableId) (name : String) (position : Int32) (column : String)
    (unique : Bool) : Row :=
  ⟨[idValue id, idValue table, .text name, .int4 position, .text column, .boolean unique]⟩

/-! ## Reading the catalog back -/

/-- The columns read so far, each with its table and its position there. -/
abbrev ReadColumns := List (TableId × Nat × ColumnDef)

def readDefault (formats : TextFormats) (encoded : Option String) (dataType : DataType) :
    Except FerriteError (Option ColumnDefault) :=
  match encoded with
  | none => .ok none
  | some encoded => some <$> decodeDefault formats encoded dataType

def readColumn (formats : TextFormats) (columns : ReadColumns) (row : Row) :
    Except FerriteError ReadColumns := do
  let id ← objectId row 0
  let position ← ordinal row 1
  let dataType ← typeFromName (← text row 3)
  let name ← text row 2
  let nullable ← boolean row 4
  let encoded ← optionalText row 5
  let default ← readDefault formats encoded dataType
  pure (columns ++ [(id, position, ⟨name, dataType, nullable, default⟩)])

/-- The columns of a table, by position. -/
def columnsOf (columns : ReadColumns) (id : TableId) : Schema :=
  ⟨(((columns.filter fun column => column.1 == id).map Prod.snd).insertionSort
    fun left right => left.1 ≤ right.1).map Prod.snd⟩

/-- A table takes its columns out of those read. -/
def readTable (state : List Entry × ReadColumns) (row : Row) :
    Except FerriteError (List Entry × ReadColumns) := do
  let id ← objectId row 0
  let schema ← text row 1
  let name ← text row 2
  pure (state.1 ++ [⟨id, schema, name, columnsOf state.2 id⟩], state.2.filter fun column => column.1 != id)

/-- What has been read of an index, with each column's position in the key. -/
structure IndexParts where
  name : String
  table : TableId
  unique : Bool
  columns : List (Nat × String)

def readIndex (parts : OrderedMap IndexId IndexParts) (row : Row) :
    Except FerriteError (OrderedMap IndexId IndexParts) := do
  let id ← objectId row 0
  let name ← text row 2
  let table ← objectId row 1
  let unique ← boolean row 5
  let position ← ordinal row 3
  let column ← text row 4
  let columns := ((parts.find? id).map IndexParts.columns).getD []
  pure (parts.insert id ⟨name, table, unique, columns ++ [(position, column)]⟩)

/-- The columns of an index in key order. -/
def IndexParts.toIndex (id : IndexId) (parts : IndexParts) : IndexDef where
  id := id
  name := parts.name
  table := parts.table
  columns := (parts.columns.insertionSort fun left right => left.1 ≤ right.1).map Prod.snd
  unique := parts.unique

/-- Fold the rows of a table, stopping at the first that cannot be read. -/
def foldRows {α : Type} (txn : TxnId) (table : TableId) (init : α)
    (step : α → Row → Except FerriteError α) : Action α :=
  Action.forEachRow txn table init fun entry acc => do
    let acc ← ofExcept (step acc entry.2)
    pure (.yield acc)

def readAll (formats : TextFormats) (txn : TxnId) : Action (List Entry × List IndexDef) := do
  let columns ← foldRows txn columnsTableId [] (readColumn formats)
  let tables ← foldRows txn tablesTableId ([], columns) readTable
  let parts ← foldRows txn indexesTableId .empty readIndex
  pure (tables.1, parts.entries.map fun entry => entry.2.toIndex entry.1)

/-- Commit on success, abort otherwise; a failing abort never masks the error. -/
def finish {α : Type} (txn : TxnId) (result : Except FerriteError α) : Action α :=
  match result with
  | .ok value => do
    Action.commit txn
    pure value
  | .error e => do
    let _ ← (Action.abort txn).attempt
    .fail e

/-- Rebuild the in-memory index from the catalog tables. -/
def reload (formats : TextFormats) : Action Unit := do
  let txn ← Action.begin
  let result ← (readAll formats txn).attempt
  let read ← finish txn result
  ask (.rebuild read.1 read.2)

/-! ## Changing the catalog -/

def column (name : String) (dataType : DataType) : ColumnDef := ⟨name, dataType, false, none⟩

def tablesSchema : Schema :=
  ⟨[column "table_id" .int8, column "schema_name" .text, column "table_name" .text]⟩

def columnsSchema : Schema :=
  ⟨[column "table_id" .int8, column "ordinal" .int4, column "column_name" .text,
    column "data_type" .text, column "nullable" .boolean, ⟨"default_expr", .text, true, none⟩]⟩

def indexesSchema : Schema :=
  ⟨[column "index_id" .int8, column "table_id" .int8, column "index_name" .text,
    column "ordinal" .int4, column "column_name" .text, column "is_unique" .boolean]⟩

def recordTable (txn : TxnId) (id : TableId) (schema name : String) : Action RowId :=
  Action.insertUnique txn tablesTableId (tableRow id schema name) tablesKeys

/-- The `default_expr` of a column. -/
def defaultValue (formats : TextFormats) (column : ColumnDef) : Except FerriteError Value :=
  match column.default with
  | some default => Value.text <$> encodeDefault formats default column.dataType
  | none => .ok .null

def recordColumn (formats : TextFormats) (txn : TxnId) (id : TableId) (position : Nat)
    (column : ColumnDef) : Action Unit := do
  let default ← ofExcept (defaultValue formats column)
  let position ← ofExcept (toOrdinal position)
  let _ ← Action.insertUnique txn columnsTableId (columnRow id position column default) columnsKeys

def recordColumns (formats : TextFormats) (txn : TxnId) (id : TableId) : List (ColumnDef × Nat) → Action Unit
  | [] => pure ()
  | (column, position) :: rest => do
    recordColumn formats txn id position column
    recordColumns formats txn id rest

def catalogTables : List (TableId × String × Schema) :=
  [(tablesTableId, "ferrite_tables", tablesSchema), (columnsTableId, "ferrite_columns", columnsSchema),
    (indexesTableId, "ferrite_indexes", indexesSchema)]

def createEach (txn : TxnId) : List TableId → Action Unit
  | [] => pure ()
  | id :: rest => do
    Action.createTable txn id
    createEach txn rest

def recordEach (formats : TextFormats) (txn : TxnId) : List (TableId × String × Schema) → Action Unit
  | [] => pure ()
  | (id, name, schema) :: rest => do
    let _ ← recordTable txn id catalogSchema name
    recordColumns formats txn id schema.columns.zipIdx
    recordEach formats txn rest

/-- Every table must exist before anything is written into them. -/
def bootstrapIn (formats : TextFormats) (txn : TxnId) : Action Unit := do
  createEach txn (catalogTables.map Prod.fst)
  recordEach formats txn catalogTables

/-- Create the catalog tables in an empty database. -/
def bootstrap (formats : TextFormats) : Action Unit := do
  let txn ← Action.begin
  let result ← (bootstrapIn formats txn).attempt
  finish txn result
  reload formats

/-- The checks on the columns of a new table, each against the columns before it. -/
def validateColumns (before : List String) : List ColumnDef → Except FerriteError Unit
  | [] => .ok ()
  | column :: rest =>
    if column.name = "" then .error (catalogError "column names must not be empty")
    else if before.contains column.name then
      .error (catalogError s!"duplicate column \x60{column.name}\x60")
    else validateColumns (before ++ [column.name]) rest

def validateTable (schema name : String) (columns : Schema) : Except FerriteError Unit :=
  if schema = "" ∨ name = "" then
    .error (catalogError "schema and table names must not be empty")
  else if schema = catalogSchema then
    .error (.permissionDenied s!"schema \x60{catalogSchema}\x60 is reserved for the system catalog")
  else if columns.columns.isEmpty then .error (catalogError "a table needs at least one column")
  else validateColumns [] columns.columns

def createTableIn (formats : TextFormats) (txn : TxnId) (schema name : String) (columns : Schema) :
    Action TableId := do
  ofExcept (validateTable schema name columns)
  let id ← Action.attempted (.reserveId schema name)
  Action.createTable txn id
  let _ ← recordTable txn id schema name
  recordColumns formats txn id columns.columns.zipIdx
  ask (.insertTable ⟨id, schema, name, columns⟩)
  pure id

/-- The position a new column of a table goes to. -/
def newColumnPosition (cache : Cache) (table : TableId) (column : ColumnDef) : Except FerriteError Nat :=
  match cache.byId table with
  | none => .error (.tableNotFound (toString table))
  | some entry =>
    if (entry.columns.columnIndex column.name).isSome then
      .error (.objectAlreadyExists s!"column \x60{entry.schema}.{entry.name}.{column.name}\x60")
    else .ok entry.columns.columns.length

def addColumnIn (formats : TextFormats) (txn : TxnId) (table : TableId) (column : ColumnDef) :
    Action Unit := do
  if isSystemTable table then
    .fail (.permissionDenied s!"table {table} belongs to the system catalog and cannot be altered")
  else if column.name = "" then .fail (catalogError "column names must not be empty")
  else
    let cache ← Action.readCache
    let position ← ofExcept (newColumnPosition cache table column)
    recordColumn formats txn table position column
    ask (.pushColumn table column)

/-- Delete rows one after the other. -/
def deleteEach (txn : TxnId) (table : TableId) : List RowId → Action Unit
  | [] => pure ()
  | row :: rest => do
    Action.delete txn table row
    deleteEach txn table rest

/-- Delete every row whose column `column` holds `wanted`. -/
def deleteRows (txn : TxnId) (table : TableId) (column : Nat) (wanted : TableId) : Action Unit := do
  let doomed ← Action.forEachRow txn table [] fun entry acc => do
    let id ← ofExcept (objectId entry.2 column)
    pure (.yield (if id = wanted then acc ++ [entry.1] else acc))
  deleteEach txn table doomed

def dropIndexIn (txn : TxnId) (index : IndexId) : Action Unit := do
  let cache ← Action.readCache
  if (cache.indexes.find? index).isNone then .fail (catalogError s!"index {index} does not exist")
  else
    deleteRows txn indexesTableId 0 index
    ask (.removeIndex index)

def dropIndexesIn (txn : TxnId) : List IndexDef → Action Unit
  | [] => pure ()
  | index :: rest => do
    dropIndexIn txn index.id
    dropIndexesIn txn rest

def checkDroppable (table : TableId) : Action Unit := do
  if isSystemTable table then
    .fail (.permissionDenied s!"table {table} belongs to the system catalog and cannot be dropped")
  else
    let cache ← Action.readCache
    if (cache.byId table).isNone then .fail (.tableNotFound (toString table)) else pure ()

/-- The table's indexes are dropped with it. -/
def dropTableIn (txn : TxnId) (table : TableId) : Action Unit := do
  checkDroppable table
  let cache ← Action.readCache
  dropIndexesIn txn (cache.indexesFor table)
  deleteRows txn columnsTableId 0 table
  deleteRows txn tablesTableId 0 table
  Action.dropTable txn table
  ask (.removeTable table)

/-- The checks on the columns of a new index, each against the columns before it. -/
def validateIndexColumns (schema : Schema) (index : String) (before : List String) :
    List String → Except FerriteError Unit
  | [] => .ok ()
  | column :: rest =>
    if (schema.columnIndex column).isNone then .error (.columnNotFound column)
    else if before.contains column then
      .error (catalogError s!"duplicate column \x60{column}\x60 in index \x60{index}\x60")
    else validateIndexColumns schema index (before ++ [column]) rest

/-- The schema the index will live in: its table's. -/
def validateIndex (cache : Cache) (name : String) (table : TableId) (columns : List String) :
    Except FerriteError String :=
  match cache.byId table with
  | none => .error (.tableNotFound (toString table))
  | some entry =>
    if isSystemTable table then
      .error (.permissionDenied
        s!"table {table} belongs to the system catalog and cannot be indexed")
    else
      match validateIndexColumns entry.columns name [] columns with
      | .error e => .error e
      | .ok () =>
        if (cache.indexByName (entry.schema, name)).isSome then
          .error (catalogError s!"index \x60{entry.schema}.{name}\x60 already exists")
        else .ok entry.schema

def recordIndexColumns (txn : TxnId) (index : IndexDef) : List (String × Nat) → Action Unit
  | [] => pure ()
  | (column, position) :: rest => do
    let position ← ofExcept (toOrdinal position)
    let _ ← Action.insertUnique txn indexesTableId
      (indexRow index.id index.table index.name position column index.unique) indexesKeys
    recordIndexColumns txn index rest

def createIndexIn (txn : TxnId) (name : String) (table : TableId) (columns : List String)
    (unique : Bool) : Action IndexId := do
  if name = "" then .fail (catalogError "index names must not be empty")
  else if columns.isEmpty then .fail (catalogError "an index needs at least one column")
  else
    let cache ← Action.readCache
    let schema ← ofExcept (validateIndex cache name table columns)
    let id ← ask .takeId
    let index : IndexDef := ⟨id, name, table, columns, unique⟩
    recordIndexColumns txn index columns.zipIdx
    ask (.insertIndex index schema)
    pure id

/-! ## Programs on their own -/

namespace Database

/-- Run a program of a new session with nothing else going on and nothing going wrong. -/
def perform {α : Type} (db : Database) (hasher : Storage.Hasher) (prog : Action α) :
    Except (Stop Empty) (Except FerriteError α × SessionState × Database) :=
  run (fun op db => .ok (.ok (db.answer hasher .calm op).1, (db.answer hasher .calm op).2)) prog .default db

/-- The database a program leaves, if it ends. -/
def left {α : Type} (db : Database) : Except (Stop Empty) (Except FerriteError α × SessionState × Database) → Database
  | .ok answer => answer.2.2
  | .error _ => db

/-- A database without even a catalog. -/
def blank (filterCapacity : Nat) : Database := ⟨.create filterCapacity, .empty⟩

/-- A database that has just been created: storage is empty but for the catalog. -/
def create (formats : TextFormats) (hasher : Storage.Hasher) (filterCapacity : Nat) : Database :=
  (blank filterCapacity).left ((blank filterCapacity).perform hasher (bootstrap formats))

end Database
end Ferrite.Catalog
