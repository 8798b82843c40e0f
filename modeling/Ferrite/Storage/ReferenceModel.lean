import Ferrite.Storage.Operation

/-!
# The commit-order reference model

Snapshot isolation written in terms of commit ordering, after the reference
implementation of `tests/mvcc_properties.rs`. It knows no transaction-id
arithmetic, no active lists and no version chains: a row keeps its committed
writes with the sequence number of their commit, and at most one transaction
with a pending write.
-/

namespace Ferrite.Storage

open Logical

/-- A call on one fixed table, as the reference model understands it. -/
inductive RowOp where
  | begin
  | snapshot (txn : TxnId)
  | insert (txn : TxnId) (row : Row)
  | update (txn : TxnId) (row : RowId) (new : Row)
  | delete (txn : TxnId) (row : RowId)
  | get (txn : TxnId) (row : RowId)
  | scan (txn : TxnId)
  | commit (txn : TxnId)
  | abort (txn : TxnId)

/-- The engine call a row operation stands for. -/
def RowOp.onTable (table : TableId) : RowOp → Op
  | .begin => .begin
  | .snapshot txn => .snapshot txn
  | .insert txn row => .insertUnique txn table row []
  | .update txn row new => .updateUnique txn table row new []
  | .delete txn row => .delete txn table row
  | .get txn row => .get txn table row
  | .scan txn => .scan txn table
  | .commit txn => .commit txn none
  | .abort txn => .abort txn

/-- The history of one row: `(commit sequence, value)`, newest first, where `none`
is a delete, and the single transaction with an uncommitted write, if any. -/
structure RowHistory where
  committed : List (Nat × Option Row)
  pending : Option TxnId

/-- An open transaction: the sequence number its snapshot was taken at, and its
own last write to each row. -/
structure ModelTxn where
  beginSeq : Nat
  writes : RowId → Option (Option Row)

/-- The transaction after it wrote to a row. -/
def ModelTxn.wrote (state : ModelTxn) (row : RowId) (value : Option Row) : ModelTxn :=
  { state with writes := fun probe => if probe = row then some value else state.writes probe }

/-- The reference database. -/
structure Model where
  seq : Nat
  nextTxn : TxnId
  nextRow : RowId
  txns : TxnId → Option ModelTxn
  rows : RowId → RowHistory

namespace Model

/-- One empty table, created by transaction 1. -/
def initial : Model where
  seq := 0
  nextTxn := 2
  nextRow := 1
  txns := fun _ => none
  rows := fun _ => ⟨[], none⟩

/-- The newest committed write at or before a sequence number. -/
def committedAt (history : RowHistory) (seq : Nat) : Option (Option Row) :=
  (history.committed.find? fun write => decide (write.1 ≤ seq)).map Prod.snd

/-- What a transaction sees of a row: `none` means no version at all, `some none`
a deleted one. -/
def view (model : Model) (state : ModelTxn) (row : RowId) : Option (Option Row) :=
  match state.writes row with
  | some own => some own
  | none => committedAt (model.rows row) state.beginSeq

/-- Whether a commit newer than the snapshot exists. -/
def hasNewerCommit (history : RowHistory) (seq : Nat) : Bool :=
  match history.committed with
  | [] => false
  | newest :: _ => decide (seq < newest.1)

def writeOutcome (model : Model) (txn : TxnId) (state : ModelTxn) (row : RowId) : Except FerriteError Unit :=
  let history := model.rows row
  if history.pending.any fun writer => writer ≠ txn then .error .serializationFailure
  else if hasNewerCommit history state.beginSeq then .error .serializationFailure
  else
    match model.view state row with
    | some (some _) => .ok ()
    | _ => .error .rowNotFound

def recordWrite (model : Model) (txn : TxnId) (state : ModelTxn) (row : RowId)
    (value : Option Row) : Model :=
  { model with
    txns := fun other => if other = txn then some (state.wrote row value) else model.txns other
    rows := fun probe =>
      if probe = row then { model.rows row with pending := some txn } else model.rows probe }

/-- A history after `txn` gave up its pending write. -/
def released (history : RowHistory) (txn : TxnId) : Option TxnId :=
  if history.pending = some txn then none else history.pending

/-- The rows a transaction sees, in increasing row id. -/
def visibleRows (model : Model) (state : ModelTxn) : List (RowId × Row) :=
  (List.range model.nextRow).filterMap fun row =>
    (model.view state row).join.map fun value => (row, value)

def begin (model : Model) : Outcome × Model := (.began model.nextTxn,
    { model with
      nextTxn := model.nextTxn + 1
      txns := fun other =>
        if other = model.nextTxn then some ⟨model.seq, fun _ => none⟩ else model.txns other })

/-- The writes of a committing transaction enter the histories under one new
sequence number. -/
def commit (model : Model) (txn : TxnId) (state : ModelTxn) : Model :=
  { model with
    seq := model.seq + 1
    txns := fun other => if other = txn then none else model.txns other
    rows := fun row =>
      match state.writes row with
      | none => model.rows row
      | some value => ⟨(model.seq + 1, value) :: (model.rows row).committed, released (model.rows row) txn⟩ }

/-- The writes of an aborting transaction disappear. -/
def abort (model : Model) (txn : TxnId) (state : ModelTxn) : Model :=
  { model with
    txns := fun other => if other = txn then none else model.txns other
    rows := fun row =>
      match state.writes row with
      | none => model.rows row
      | some _ => { model.rows row with pending := released (model.rows row) txn } }

/-- Run `act` for an open transaction; a closed one is reported. -/
def withTxn (model : Model) (txn : TxnId) (act : ModelTxn → Outcome × Model) : Outcome × Model :=
  match model.txns txn with
  | some state => act state
  | none => (.failed (.txnNotActive txn), model)

/-- A write that goes through when `writeOutcome` allows it. -/
def write (model : Model) (txn : TxnId) (state : ModelTxn) (row : RowId) (value : Option Row) : Outcome × Model :=
  match model.writeOutcome txn state row with
  | .ok () => (.done, model.recordWrite txn state row value)
  | .error e => (.failed e, model)

/-- Answer one call. -/
def step (model : Model) : RowOp → Outcome × Model
  | .begin => model.begin
  | .snapshot txn =>
    model.withTxn txn fun state =>
      (.done,
        { model with
          txns := fun other =>
            if other = txn then some { state with beginSeq := model.seq } else model.txns other })
  | .insert txn row =>
    model.withTxn txn fun state =>
      (.inserted model.nextRow,
        { model.recordWrite txn state model.nextRow (some row) with
          nextRow := model.nextRow + 1 })
  | .update txn row new => model.withTxn txn fun state => model.write txn state row (some new)
  | .delete txn row => model.withTxn txn fun state => model.write txn state row none
  | .get txn row =>
    model.withTxn txn fun state =>
      (match (model.view state row).join with
        | some value => .row value
        | none => .failed .rowNotFound,
        model)
  | .scan txn => model.withTxn txn fun state => (.rows (model.visibleRows state), model)
  | .commit txn => model.withTxn txn fun state => (.done, model.commit txn state)
  | .abort txn => model.withTxn txn fun state => (.done, model.abort txn state)

/-- Answer a whole run. -/
def run (model : Model) (ops : List RowOp) : List Outcome × Model := Machine.run step model ops

end Model
end Ferrite.Storage
