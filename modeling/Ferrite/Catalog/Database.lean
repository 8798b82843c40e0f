import Ferrite.Catalog.Cache
import Ferrite.Logical.Contract
import Ferrite.Storage.Operation

/-!
# The database all sessions share

Storage and the catalog cache, each behind its own lock, and the calls a session
makes to them: one call is one critical section. What a call finds besides the
database (a failing disk, the clock) is its `Moment`. Other than for a commit and an
abort, a failing call leaves storage as it was.
-/

namespace Ferrite.Catalog

open Logical
open Storage (Engine Hasher Op Outcome)

/-- A reading of the monotonic clock, in nanoseconds. -/
abbrev Instant := Nat

structure Database where
  storage : Engine
  cache : Cache

/-- One call to storage, to the cache or to a clock. Storage answers every call but
three through `Op`: a commit may fail at any of its steps, and a scan takes the
lock once when it is opened and once for every row. -/
inductive Call : Type → Type where
  | storage (op : Op) : Call Outcome
  | commit (txn : TxnId) : Call (Except FerriteError Unit)
  | openScan (txn : TxnId) (table : TableId) : Call (Except FerriteError Unit)
  | scanNext (txn : TxnId) (table : TableId) (start : RowId) :
      Call (Except FerriteError (Option (RowId × Row)))
  | readCache : Call Cache
  | reserveId (schema name : String) : Call (Except FerriteError TableId)
  | takeId : Call IndexId
  | insertTable (entry : Entry) : Call Unit
  | pushColumn (table : TableId) (column : ColumnDef) : Call Unit
  | removeTable (table : TableId) : Call Unit
  | insertIndex (index : IndexDef) (schema : String) : Call Unit
  | removeIndex (index : IndexId) : Call Unit
  | rebuild (tables : List Entry) (indexes : List IndexDef) : Call Unit
  | now : Call Instant
  | wallClock : Call Int64
  | tick : Call (Except FerriteError Unit)

/-- How storage fails to do what it is asked: it does nothing, a commit stops half way,
or the record of an abort cannot be written. -/
inductive Fault where
  | refused (error : FerriteError)
  | commit (fault : Engine.CommitFault)
  | abort (error : FerriteError)

/-- What the outside world holds ready for one call: a fault, the two clocks, and
whether the deadline of the statement has passed. -/
structure Moment where
  fault : Option Fault
  now : Instant
  wallClock : Int64
  late : Bool

/-- A moment at which nothing goes wrong. -/
def Moment.calm : Moment := ⟨none, 0, 0, false⟩

namespace Database

/-- The check `scan` makes before it hands out its iterator. -/
def openScan (engine : Engine) (txn : TxnId) (table : TableId) : Except FerriteError Unit :=
  match engine.snapshotOf txn with
  | .error e => .error e
  | .ok snap => (engine.tableRef snap table).map fun _ => ()

/-- A storage call that was not refused. -/
def afterStorage (db : Database) {α : Type} (answer : α × Engine) : α × Database :=
  (answer.1, { db with storage := answer.2 })

/-- A change of the cache that answers nothing. -/
def withCache (db : Database) (cache : Cache) : Unit × Database := ((), { db with cache := cache })

/-- An abort whose record cannot be written reports it; the transaction has left by then. -/
def unrecorded (error : FerriteError) : Op → Outcome → Outcome
  | .abort _, .done => .failed error
  | _, outcome => outcome

def timeoutError : FerriteError := .timeout "the statement ran past its time budget"

def answer (hasher : Hasher) (moment : Moment) (db : Database) : {β : Type} → Call β → β × Database
  | _, .storage op =>
    match moment.fault with
    | some (.refused error) => (.failed error, db)
    | some (.abort error) =>
      let answer := db.storage.step hasher op
      db.afterStorage (unrecorded error op answer.1, answer.2)
    | _ => db.afterStorage (db.storage.step hasher op)
  | _, .commit txn =>
    match moment.fault with
    | some (.refused error) => (.error error, db)
    | some (.commit fault) => db.afterStorage (Engine.commitWith (some fault) db.storage txn)
    | _ => db.afterStorage (Engine.commitWith none db.storage txn)
  | _, .openScan txn table =>
    match moment.fault with
    | some (.refused error) => (.error error, db)
    | _ => (openScan db.storage txn table, db)
  | _, .scanNext txn table start =>
    match moment.fault with
    | some (.refused error) => (.error error, db)
    | _ => (db.storage.scanStep txn table start, db)
  | _, .readCache => (db.cache, db)
  | _, .reserveId schema name =>
    let (id, cache) := db.cache.reserveId schema name
    (id, { db with cache := cache })
  | _, .takeId =>
    let (id, cache) := db.cache.takeId
    (id, { db with cache := cache })
  | _, .insertTable entry => db.withCache (db.cache.insertTable entry)
  | _, .pushColumn table column => db.withCache (db.cache.pushColumn table column)
  | _, .removeTable table => db.withCache (db.cache.removeTable table)
  | _, .insertIndex index schema => db.withCache (db.cache.insertIndex index schema)
  | _, .removeIndex index => db.withCache (db.cache.removeIndex index)
  | _, .rebuild tables indexes => db.withCache (Cache.rebuild tables indexes)
  | _, .now => (moment.now, db)
  | _, .wallClock => (moment.wallClock, db)
  | _, .tick => (if moment.late then .error timeoutError else .ok (), db)

end Database

/-! ## Programs of calls -/

/-- The transaction a connection opened with `BEGIN`, if any, when it did, and whether
DDL ran inside it. -/
structure SessionState where
  txn : Option TxnId
  openedAt : Option Instant
  ddl : Bool
deriving DecidableEq

/-- No transaction is open on a new connection. -/
def SessionState.default : SessionState := ⟨none, none, false⟩

/-- A program of one session. -/
abbrev Action (α : Type) := Prog Call SessionState FerriteError α

namespace Action

/-- A call that answers with a result or an error. -/
def attempted {α : Type} (op : Call (Except FerriteError α)) : Action α := do
  Prog.ofExcept (← Prog.ask op)

/-- A storage call that returns nothing. -/
def unitCall (op : Op) : Action Unit := do
  match ← Prog.ask (.storage op) with
  | .done => pure ()
  | .failed e => .fail e
  | _ => .hang

def begin : Action TxnId := do
  match ← Prog.ask (.storage .begin) with
  | .began txn => pure txn
  | .failed e => .fail e
  | _ => .hang

def snapshot (txn : TxnId) : Action Unit := unitCall (.snapshot txn)

def abort (txn : TxnId) : Action Unit := unitCall (.abort txn)

def commit (txn : TxnId) : Action Unit := attempted (.commit txn)

def insertUnique (txn : TxnId) (table : TableId) (row : Row) (unique : List UniqueKey) :
    Action RowId := do
  match ← Prog.ask (.storage (.insertUnique txn table row unique)) with
  | .inserted id => pure id
  | .failed e => .fail e
  | _ => .hang

def updateUnique (txn : TxnId) (table : TableId) (row : RowId) (new : Row)
    (unique : List UniqueKey) : Action Unit := unitCall (.updateUnique txn table row new unique)

def delete (txn : TxnId) (table : TableId) (row : RowId) : Action Unit := unitCall (.delete txn table row)

def createTable (txn : TxnId) (table : TableId) : Action Unit := unitCall (.createTable txn table)

def dropTable (txn : TxnId) (table : TableId) : Action Unit := unitCall (.dropTable txn table)

def readCache : Action Cache := Prog.ask .readCache

/-- More steps than a scan can take: each moves the cursor past a `u64` row id. -/
def scanLimit : Nat := 2 ^ 64

def scanLoop {α : Type} (txn : TxnId) (table : TableId)
    (body : RowId × Row → α → Action (ForInStep α)) : Nat → RowId → α → Action α
  | 0, _, _ => .hang
  | fuel + 1, start, acc => do
    match ← attempted (.scanNext txn table start) with
    | none => pure acc
    | some entry =>
      match ← body entry acc with
      | .done acc => pure acc
      | .yield acc => scanLoop txn table body fuel (entry.1 + 1) acc

/-- Open a scan and go over its rows until the body is done. -/
def forEachRow {α : Type} (txn : TxnId) (table : TableId) (init : α)
    (body : RowId × Row → α → Action (ForInStep α)) : Action α := do
  attempted (.openScan txn table)
  scanLoop txn table body scanLimit 0 init

end Action
end Ferrite.Catalog
