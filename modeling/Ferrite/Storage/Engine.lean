import Ferrite.Logical.OrderedMap
import Ferrite.Storage.Metadata
import Ferrite.Storage.Unique
import Mathlib.Data.List.Sort

/-!
# The MVCC engine over stored version chains

`ferrite-storage/src/engine.rs` with each B-tree taken as the ordered map it
stores and each payload as the version chain it encodes. Every operation runs
under the engine lock, so an operation is one function from state to result and
state; a returned error keeps whatever the operation had changed by then.
-/

namespace Ferrite.Storage

open Logical

/-- `xmax = noTxn` means the version has not been deleted. -/
def noTxn : TxnId := 0

/-- MVCC visibility snapshot: `xmin` is an exclusive upper bound. -/
structure Snapshot where
  txnId : TxnId
  xmin : TxnId
  activeAtStart : List TxnId
deriving DecidableEq

/-- One version of a stored value, with its creator and its deleter. -/
structure Version (α : Type) where
  xmin : TxnId
  xmax : TxnId
  payload : α
deriving DecidableEq

/-- A version nobody has deleted. -/
def Version.live {α : Type} (xmin : TxnId) (payload : α) : Version α := ⟨xmin, noTxn, payload⟩

/-- The page id of a table's header, which never moves. -/
abbrev HeaderId := Nat

/-- The commit bitmap: how many segments are allocated, and the bits set in them. -/
structure Clog where
  segments : Nat
  bits : TxnId → Bool
  allocated : ∀ txn, bits txn = true → txn / txnsPerClogPage < segments

namespace Clog

/-- The commit log of a new database. -/
def empty : Clog := ⟨0, fun _ => false, by simp⟩

/-- Unknown transactions, beyond the allocated segments, are not committed. -/
def isCommitted (clog : Clog) (txn : TxnId) : Bool :=
  decide (txn / txnsPerClogPage < clog.segments) && clog.bits txn

/-- Allocate segments up to the one of `txn`, then set its bit. -/
def markCommitted (clog : Clog) (txn : TxnId) : Clog where
  segments := max clog.segments (txn / txnsPerClogPage + 1)
  bits := fun other => decide (other = txn) || clog.bits other
  allocated := by
    intro other set
    rcases Bool.or_eq_true_iff.mp set with new | old
    · rw [of_decide_eq_true new]
      exact lt_of_lt_of_le (Nat.lt_succ_self _) (le_max_right _ _)
    · exact lt_of_lt_of_le (clog.allocated other old) (le_max_left _ _)

/-- Allocate at most `count` of the segments `txn` needs, setting no bit. -/
def allocate (clog : Clog) (txn : TxnId) (count : Nat) : Clog where
  segments := max clog.segments (min (clog.segments + count) (txn / txnsPerClogPage + 1))
  bits := clog.bits
  allocated := fun other set => lt_of_lt_of_le (clog.allocated other set) (le_max_left _ _)

private theorem isCommitted_eq_bits (clog : Clog) (txn : TxnId) : clog.isCommitted txn = clog.bits txn := by
  cases set : clog.bits txn with
  | false => simp [isCommitted, set]
  | true => simp [isCommitted, set, clog.allocated txn set]

@[simp] theorem isCommitted_allocate (clog : Clog) (txn other : TxnId) (count : Nat) :
    (clog.allocate txn count).isCommitted other = clog.isCommitted other := by
  rw [isCommitted_eq_bits, isCommitted_eq_bits]
  rfl

@[simp] theorem isCommitted_markCommitted (clog : Clog) (txn other : TxnId) :
    (clog.markCommitted txn).isCommitted other = (decide (other = txn) || clog.isCommitted other) := by
  rw [isCommitted_eq_bits, isCommitted_eq_bits]
  rfl

end Clog

/-- A table: the row-id allocator of its header page and the chains of its tree. -/
structure Table where
  nextRow : RowId
  rows : OrderedMap RowId (List (Version Row))

/-- What the engine remembers of an open transaction. -/
structure TxnState where
  snapshot : Snapshot
  dropped : List HeaderId

/-- The engine's state between two operations. -/
structure Engine where
  nextTxnId : TxnId
  clog : Clog
  catalog : OrderedMap TableId (List (Version HeaderId))
  tables : HeaderId → Option Table
  nextHeader : HeaderId
  active : List (TxnId × TxnState)
  filters : KeyFilters

namespace Engine

/-- A freshly created database, with the configured filter capacity. -/
def create (filterCapacity : Nat) : Engine where
  nextTxnId := 1
  clog := .empty
  catalog := .empty
  tables := fun _ => none
  nextHeader := 1
  active := []
  filters := .new filterCapacity

/-! ## Transactions and snapshots -/

/-- Whether the transaction is open. -/
def isActive (engine : Engine) (txn : TxnId) : Bool := (engine.active.lookup txn).isSome

def snapshotOf (engine : Engine) (txn : TxnId) : Except FerriteError Snapshot :=
  match engine.active.lookup txn with
  | some state => .ok state.snapshot
  | none => .error (.txnNotActive txn)

/-- The snapshot `txn` would take now: everything not yet handed out, and
everybody else who is still running. -/
def takeSnapshot (engine : Engine) (txn : TxnId) : Snapshot where
  txnId := txn
  xmin := engine.nextTxnId
  activeAtStart := ((engine.active.map Prod.fst).filter fun id => id ≠ txn).insertionSort (· ≤ ·)

def isCommitted (engine : Engine) (xid : TxnId) : Bool := engine.clog.isCommitted xid

/-- Visibility of a single transaction id under a snapshot. The binary search of
the source is membership, since the list is sorted. -/
def visibleTxn (engine : Engine) (snap : Snapshot) (xid : TxnId) : Bool :=
  if xid = noTxn then false
  else if xid = snap.txnId then true
  else if snap.xmin ≤ xid || snap.activeAtStart.contains xid then false
  else engine.isCommitted xid

/-- A transaction is aborted once it is neither running nor committed. -/
def isAborted (engine : Engine) (xid : TxnId) : Bool :=
  if xid = noTxn || engine.isActive xid then false else !engine.isCommitted xid

variable {α : Type}

/-- The newest version whose creator is visible and whose deleter is not. -/
def visibleVersion (engine : Engine) (snap : Snapshot) : List (Version α) → Option α
  | [] => none
  | version :: older =>
    if !engine.visibleTxn snap version.xmin then visibleVersion engine snap older
    else if version.xmax ≠ noTxn && engine.visibleTxn snap version.xmax then
      visibleVersion engine snap older
    else some version.payload

/-- The oldest id a snapshot still cares about. -/
def snapshotFloor (snap : Snapshot) : TxnId := min (snap.activeAtStart.head?.getD snap.xmin) snap.xmin

/-- Oldest transaction id whose outcome any live snapshot still cares about. -/
def pruneHorizon (engine : Engine) : TxnId :=
  engine.active.foldl (fun horizon entry => min horizon (snapshotFloor entry.2.snapshot)) engine.nextTxnId

/-- The loop of `prune`, with the horizon it computed. -/
def pruneBelow (engine : Engine) (horizon : TxnId) : List (Version α) → List (Version α)
  | [] => []
  | version :: older =>
    if engine.isAborted version.xmin then pruneBelow engine horizon older
    else
      let version :=
        if version.xmax ≠ noTxn && engine.isAborted version.xmax then
          { version with xmax := noTxn }
        else version
      if version.xmax ≠ noTxn && decide (version.xmax < horizon)
          && engine.isCommitted version.xmax then
        pruneBelow engine horizon older
      else version :: pruneBelow engine horizon older

/-- Drop versions no snapshot can reach and undo the effect of aborted deletes. -/
def prune (engine : Engine) (chain : List (Version α)) : List (Version α) :=
  pruneBelow engine engine.pruneHorizon chain

/-- Shared write-conflict check for update, delete and drop table, on a pruned chain. -/
def writableVersion (engine : Engine) (snap : Snapshot) (chain : List (Version α)) : Except FerriteError Unit :=
  match chain with
  | [] => .error .rowNotFound
  | newest :: _ =>
    if !engine.visibleTxn snap newest.xmin then .error .serializationFailure
    else if newest.xmax ≠ noTxn then
      if newest.xmax = snap.txnId then .error .rowNotFound
      else if engine.visibleTxn snap newest.xmax then .error .rowNotFound
      else if !engine.isAborted newest.xmax then .error .serializationFailure
      else .ok ()
    else .ok ()

/-! ## Tables and chains -/

/-- The header a table id names under a snapshot. -/
def tableRef (engine : Engine) (snap : Snapshot) (table : TableId) : Except FerriteError HeaderId :=
  match engine.catalog.find? table with
  | none => .error (.tableNotFound (toString table))
  | some chain =>
    match engine.visibleVersion snap chain with
    | none => .error (.tableNotFound (toString table))
    | some header =>
      match engine.tables header with
      | none => .error (.storage "catalog entry does not point at a table header")
      | some _ => .ok header

/-- The rows of the tree a header page points at. -/
def rowsOf (engine : Engine) (header : HeaderId) : OrderedMap RowId (List (Version Row)) :=
  match engine.tables header with
  | some table => table.rows
  | none => .empty

def loadChain (engine : Engine) (header : HeaderId) (row : RowId) : List (Version Row) :=
  ((engine.rowsOf header).find? row).getD []

/-- Write a chain back, removing the key entirely when nothing is left. -/
def storeChain (engine : Engine) (header : HeaderId) (row : RowId)
    (chain : List (Version Row)) : Engine :=
  match engine.tables header with
  | none => engine
  | some table =>
    let rows := if chain.isEmpty then table.rows.erase row else table.rows.insert row chain
    { engine with
      tables := fun other => if other = header then some { table with rows := rows }
        else engine.tables other }

/-- Hand out the next row id of a table. The allocator is not transactional. -/
def allocRowId (engine : Engine) (header : HeaderId) : RowId × Engine :=
  match engine.tables header with
  | none => (0, engine)
  | some table =>
    (table.nextRow,
      { engine with
        tables := fun other => if other = header then some { table with nextRow := table.nextRow + 1 }
          else engine.tables other })

def loadCatalog (engine : Engine) (table : TableId) : List (Version HeaderId) := (engine.catalog.find? table).getD []

def storeCatalog (engine : Engine) (table : TableId) (chain : List (Version HeaderId)) : Engine :=
  { engine with
    catalog := if chain.isEmpty then engine.catalog.erase table
      else engine.catalog.insert table chain }

/-! ## Unique constraints -/

/-- The version of a chain a unique constraint has to reckon with. It ignores the
reader's snapshot. -/
def constraintVersion (engine : Engine) (txn : TxnId) : List (Version α) → Option α
  | [] => none
  | version :: older =>
    if engine.isAborted version.xmin then constraintVersion engine txn older
    else if version.xmax = noTxn || engine.isAborted version.xmax then some version.payload
    else if version.xmax = txn || !engine.isActive version.xmax then none
    else some version.payload

/-- Every row of a table as a unique constraint sees it, in the order the cursor
visits them. -/
def walkForConstraints (engine : Engine) (txn : TxnId) (header : HeaderId) : List (RowId × Row) :=
  (engine.rowsOf header).entries.filterMap fun entry =>
    (engine.constraintVersion txn entry.2).map fun row => (entry.1, row)

/-- The hashes a build collects. -/
def walkHashes (hasher : Hasher) (engine : Engine) (txn : TxnId) (header : HeaderId)
    (constraint : UniqueKey) : Finset UInt64 :=
  ((engine.walkForConstraints txn header).filterMap fun entry =>
    (constraint.extract entry.2).map (hashKey hasher)).toFinset

/-- Whether the walk meets another row that carries the wanted key. -/
def walkClashes (engine : Engine) (txn : TxnId) (header : HeaderId) (constraint : UniqueKey)
    (wanted : List Value) (exclude : Option RowId) : Bool :=
  (engine.walkForConstraints txn header).any fun entry =>
    some entry.1 != exclude &&
      match constraint.extract entry.2 with
      | some key => keyEq key wanted
      | none => false

/-- Build the filter of a constraint unless it is built already. -/
def buildFilter (hasher : Hasher) (engine : Engine) (txn : TxnId) (table : TableId)
    (header : HeaderId) (constraint : UniqueKey) : Engine :=
  if engine.filters.isBuilt table constraint.columns then engine
  else
    { engine with
      filters := engine.filters.build table constraint.columns (engine.walkHashes hasher txn header constraint) }

/-- Refuse `row` if any constraint of the list is already matched. Only the
filters change. -/
def enforceUnique (hasher : Hasher) (engine : Engine) (txn : TxnId) (table : TableId)
    (header : HeaderId) (row : Row) (exclude : Option RowId) :
    List UniqueKey → Except FerriteError Unit × Engine
  | [] => (.ok (), engine)
  | constraint :: rest =>
    match constraint.extract row with
    | none => enforceUnique hasher engine txn table header row exclude rest
    | some wanted =>
      let hash := hashKey hasher wanted
      let built := engine.buildFilter hasher txn table header constraint
      if built.filters.mayContain table constraint.columns hash
          && built.walkClashes txn header constraint wanted exclude then
        (.error (constraint.violation wanted), built)
      else
        enforceUnique hasher { built with filters := built.filters.note table constraint.columns hash }
          txn table header row exclude rest

/-- The check in front of a row write: an empty list invalidates the filters. -/
def checkUnique (hasher : Hasher) (engine : Engine) (txn : TxnId) (table : TableId)
    (header : HeaderId) (row : Row) (exclude : Option RowId) (unique : List UniqueKey) :
    Except FerriteError Unit × Engine :=
  if unique.isEmpty then (.ok (), { engine with filters := engine.filters.invalidate table })
  else enforceUnique hasher engine txn table header row exclude unique

/-! ## Operations -/

/-- Hand out the next transaction id and take its first snapshot. -/
def begin (engine : Engine) : TxnId × Engine :=
  let txn := engine.nextTxnId
  let engine := { engine with nextTxnId := txn + 1 }
  (txn, { engine with active := engine.active ++ [(txn, ⟨engine.takeSnapshot txn, []⟩)] })

/-- Remove a transaction from the active set. -/
def close (engine : Engine) (txn : TxnId) : Engine :=
  { engine with active := engine.active.filter fun entry => entry.1 ≠ txn }

/-- Free the pages of dropped tables, header by header. -/
def reclaim (engine : Engine) : List HeaderId → Except FerriteError Unit × Engine
  | [] => (.ok (), engine)
  | header :: rest =>
    match engine.tables header with
    | none => (.error (.storage "catalog entry does not point at a table header"), engine)
    | some _ =>
      reclaim
        { engine with tables := fun other => if other = header then none else engine.tables other }
        rest

/-- The step of a commit at which an I/O call fails. `markCommitted` fails after it
allocated some of the commit-log segments it needs, while the pager reads a page or
journals the dirty ones; that it fails to write an evicted page to the data file, and
so loses the page, is not among the faults. `checkpoint` is the automatic one, after
the transaction has left the active set. -/
inductive CommitFault where
  | markCommitted (allocated : Nat) (error : FerriteError)
  | journalAppend (reason : String)
  | journalSync (reason : String)
  | checkpoint (error : FerriteError)
deriving DecidableEq

/-- The part of a commit after its commit bit is set: write the journal, which
cannot encode a meta page whose commit-log directory has outgrown it, then close
the transaction, checkpoint, and reclaim the tables it dropped. -/
def finishCommit (fault : Option CommitFault) (engine : Engine) (txn : TxnId)
    (dropped : List HeaderId) : Except FerriteError Unit × Engine :=
  if clogDirectoryCapacity < engine.clog.segments then (.error ceilingError, engine)
  else
    match fault with
    | some (.journalAppend reason) =>
      (.error (.storage s!"appending to journal: {reason}"), engine)
    | some (.journalSync reason) => (.error (.storage s!"syncing journal: {reason}"), engine)
    | some (.checkpoint error) => (.error error, engine.close txn)
    | _ =>
      if !dropped.isEmpty && (engine.close txn).active.isEmpty then
        (engine.close txn).reclaim dropped
      else (.ok (), engine.close txn)

/-- Commit, with an I/O call failing at the given step if any. -/
def commitWith (fault : Option CommitFault) (engine : Engine) (txn : TxnId) : Except FerriteError Unit × Engine :=
  match engine.active.lookup txn with
  | none => (.error (.txnNotActive txn), engine)
  | some state =>
    match fault with
    | some (.markCommitted allocated error) =>
      (.error error, { engine with clog := engine.clog.allocate txn allocated })
    | _ => finishCommit fault { engine with clog := engine.clog.markCommitted txn } txn state.dropped

/-- No undo pass: forgetting the transaction is all an abort does. -/
def abort (engine : Engine) (txn : TxnId) : Except FerriteError Unit × Engine :=
  if engine.isActive txn then (.ok (), engine.close txn)
  else (.error (.txnNotActive txn), engine)

/-- Re-take the snapshot of an open transaction. -/
def snapshot (engine : Engine) (txn : TxnId) : Except FerriteError Snapshot × Engine :=
  if engine.isActive txn then
    let snap := engine.takeSnapshot txn
    (.ok snap,
      { engine with
        active := engine.active.map fun entry =>
          if entry.1 = txn then (entry.1, { entry.2 with snapshot := snap }) else entry })
  else (.error (.txnNotActive txn), engine)

/-- Check every constraint, then store the row under a fresh row id. -/
def insertUnique (hasher : Hasher) (engine : Engine) (txn : TxnId) (table : TableId) (row : Row)
    (unique : List UniqueKey) : Except FerriteError RowId × Engine :=
  match engine.snapshotOf txn with
  | .error e => (.error e, engine)
  | .ok snap =>
    match engine.tableRef snap table with
    | .error e => (.error e, engine)
    | .ok header =>
      match engine.checkUnique hasher txn table header row none unique with
      | (.error e, checked) => (.error e, checked)
      | (.ok (), checked) =>
        let (rowId, allocated) := checked.allocRowId header
        (.ok rowId, allocated.storeChain header rowId [Version.live txn row])

/-- The chain after `txn` replaced the value of the newest, writable version. Its
own uncommitted version is rewritten in place. -/
def supersede (txn : TxnId) (new : α) : List (Version α) → List (Version α)
  | [] => []
  | newest :: older =>
    if newest.xmin = txn then { newest with payload := new } :: older
    else Version.live txn new :: { newest with xmax := txn } :: older

/-- The chain after `txn` deleted the newest, writable version. -/
def markDeleted (txn : TxnId) : List (Version α) → List (Version α)
  | [] => []
  | newest :: older => { newest with xmax := txn } :: older

def updateUnique (hasher : Hasher) (engine : Engine) (txn : TxnId) (table : TableId)
    (row : RowId) (new : Row) (unique : List UniqueKey) : Except FerriteError Unit × Engine :=
  match engine.snapshotOf txn with
  | .error e => (.error e, engine)
  | .ok snap =>
    match engine.tableRef snap table with
    | .error e => (.error e, engine)
    | .ok header =>
      match engine.checkUnique hasher txn table header new (some row) unique with
      | (.error e, checked) => (.error e, checked)
      | (.ok (), checked) =>
        let chain := checked.prune (checked.loadChain header row)
        match checked.writableVersion snap chain with
        | .error e => (.error e, checked)
        | .ok () => (.ok (), checked.storeChain header row (supersede txn new chain))

def delete (engine : Engine) (txn : TxnId) (table : TableId) (row : RowId) : Except FerriteError Unit × Engine :=
  match engine.snapshotOf txn with
  | .error e => (.error e, engine)
  | .ok snap =>
    match engine.tableRef snap table with
    | .error e => (.error e, engine)
    | .ok header =>
      let chain := engine.prune (engine.loadChain header row)
      match engine.writableVersion snap chain with
      | .error e => (.error e, engine)
      | .ok () => (.ok (), engine.storeChain header row (markDeleted txn chain))

def get (engine : Engine) (txn : TxnId) (table : TableId) (row : RowId) : Except FerriteError Row :=
  match engine.snapshotOf txn with
  | .error e => .error e
  | .ok snap =>
    match engine.tableRef snap table with
    | .error e => .error e
    | .ok header =>
      match engine.visibleVersion snap (engine.loadChain header row) with
      | some found => .ok found
      | none => .error .rowNotFound

/-- The loop of `scan_step`: seek, test, move past the key. The fuel is more than
the number of keys, so it never runs out. -/
def scanLoop (engine : Engine) (snap : Snapshot) (rows : OrderedMap RowId (List (Version Row))) :
    Nat → RowId → Option (RowId × Row)
  | 0, _ => none
  | fuel + 1, cursor =>
    match rows.seek cursor with
    | none => none
    | some (key, chain) =>
      match engine.visibleVersion snap chain with
      | some row => some (key, row)
      | none => scanLoop engine snap rows fuel (key + 1)

def scanStep (engine : Engine) (txn : TxnId) (table : TableId) (start : RowId) :
    Except FerriteError (Option (RowId × Row)) :=
  match engine.snapshotOf txn with
  | .error e => .error e
  | .ok snap =>
    match engine.tableRef snap table with
    | .error e => .error e
    | .ok header =>
      let rows := engine.rowsOf header
      .ok (engine.scanLoop snap rows (rows.entries.length + 1) start)

/-- Consume a scan from `start`: `next` until it is exhausted or fails. -/
def scanFrom (engine : Engine) (txn : TxnId) (table : TableId) :
    Nat → RowId → Except FerriteError (List (RowId × Row))
  | 0, _ => .ok []
  | fuel + 1, start =>
    match engine.scanStep txn table start with
    | .error e => .error e
    | .ok none => .ok []
    | .ok (some (key, row)) =>
      match scanFrom engine txn table fuel (key + 1) with
      | .error e => .error e
      | .ok rest => .ok ((key, row) :: rest)

/-- A whole scan, with no other operation between two steps of the iterator. -/
def scan (engine : Engine) (txn : TxnId) (table : TableId) : Except FerriteError (List (RowId × Row)) :=
  match engine.snapshotOf txn with
  | .error e => .error e
  | .ok snap =>
    match engine.tableRef snap table with
    | .error e => .error e
    | .ok header => engine.scanFrom txn table ((engine.rowsOf header).entries.length + 1) 0

/-- Create a table under an id nobody else is using in this snapshot. -/
def createTable (engine : Engine) (txn : TxnId) (table : TableId) : Except FerriteError Unit × Engine :=
  match engine.snapshotOf txn with
  | .error e => (.error e, engine)
  | .ok snap =>
    let chain := engine.prune (engine.loadCatalog table)
    let conflict : Option FerriteError :=
      match chain with
      | [] => none
      | newest :: _ =>
        if !engine.visibleTxn snap newest.xmin then some .serializationFailure
        else if newest.xmax = noTxn then
          some (.storage s!"table {table} already exists")
        else if newest.xmax ≠ txn && !engine.visibleTxn snap newest.xmax then
          some .serializationFailure
        else none
    match conflict with
    | some e => (.error e, engine)
    | none =>
      let header := engine.nextHeader
      let engine :=
        { engine with
          filters := engine.filters.invalidate table
          nextHeader := header + 1
          tables := fun other => if other = header then some ⟨1, .empty⟩
            else engine.tables other }
      (.ok (), engine.storeCatalog table (Version.live txn header :: chain))

def dropTable (engine : Engine) (txn : TxnId) (table : TableId) : Except FerriteError Unit × Engine :=
  match engine.snapshotOf txn with
  | .error e => (.error e, engine)
  | .ok snap =>
    match engine.prune (engine.loadCatalog table) with
    | [] => (.error (.tableNotFound (toString table)), engine)
    | newest :: older =>
      match engine.writableVersion snap (newest :: older) with
      | .error .rowNotFound => (.error (.tableNotFound (toString table)), engine)
      | .error other => (.error other, engine)
      | .ok () =>
        let engine := engine.storeCatalog table (markDeleted txn (newest :: older))
        (.ok (),
          { engine with
            filters := engine.filters.invalidate table
            active := engine.active.map fun entry =>
              if entry.1 = txn then
                (entry.1, { entry.2 with dropped := entry.2.dropped ++ [newest.payload] })
              else entry })

end Engine
end Ferrite.Storage
