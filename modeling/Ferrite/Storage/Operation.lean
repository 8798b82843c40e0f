import Ferrite.Logical.Machine
import Ferrite.Storage.Engine

/-!
# Operations and runs of the engine

The calls of the `StorageEngine` trait as data, and the engine as the machine
that answers them. A run of interleaved transactions is a list of operations:
each names the transaction it belongs to, and every list is a legal run.
-/

namespace Ferrite.Storage

open Logical

/-- One call of the storage interface. `insert` and `update` are the calls with
no constraints. -/
inductive Op where
  | begin
  | snapshot (txn : TxnId)
  | insertUnique (txn : TxnId) (table : TableId) (row : Row) (unique : List UniqueKey)
  | updateUnique (txn : TxnId) (table : TableId) (row : RowId) (new : Row)
      (unique : List UniqueKey)
  | delete (txn : TxnId) (table : TableId) (row : RowId)
  | get (txn : TxnId) (table : TableId) (row : RowId)
  | scan (txn : TxnId) (table : TableId)
  | createTable (txn : TxnId) (table : TableId)
  | dropTable (txn : TxnId) (table : TableId)
  | commit (txn : TxnId) (fault : Option Engine.CommitFault)
  | abort (txn : TxnId)

/-- What a call returns. A snapshot is only pinned here; its fields are internal. -/
inductive Outcome where
  | began (txn : TxnId)
  | done
  | inserted (row : RowId)
  | row (row : Row)
  | rows (rows : List (RowId × Row))
  | failed (error : FerriteError)
deriving DecidableEq

namespace Outcome

/-- The outcome of a call that returns nothing on success. -/
def ofUnit : Except FerriteError Unit → Outcome
  | .ok () => .done
  | .error e => .failed e

def ofInsert : Except FerriteError RowId → Outcome
  | .ok rowId => .inserted rowId
  | .error e => .failed e

/-- The outcome of a point read. -/
def ofRow : Except FerriteError Row → Outcome
  | .ok found => .row found
  | .error e => .failed e

/-- The outcome of a consumed scan. -/
def ofRows : Except FerriteError (List (RowId × Row)) → Outcome
  | .ok found => .rows found
  | .error e => .failed e

end Outcome

namespace Engine

/-- Answer one call. -/
def step (hasher : Hasher) (engine : Engine) : Op → Outcome × Engine
  | .begin =>
    let (txn, engine) := engine.begin
    (.began txn, engine)
  | .snapshot txn =>
    let (result, engine) := engine.snapshot txn
    (.ofUnit (result.map fun _ => ()), engine)
  | .insertUnique txn table row unique =>
    let (result, engine) := engine.insertUnique hasher txn table row unique
    (.ofInsert result, engine)
  | .updateUnique txn table row new unique =>
    let (result, engine) := engine.updateUnique hasher txn table row new unique
    (.ofUnit result, engine)
  | .delete txn table row =>
    let (result, engine) := engine.delete txn table row
    (.ofUnit result, engine)
  | .get txn table row => (.ofRow (engine.get txn table row), engine)
  | .scan txn table => (.ofRows (engine.scan txn table), engine)
  | .createTable txn table =>
    let (result, engine) := engine.createTable txn table
    (.ofUnit result, engine)
  | .dropTable txn table =>
    let (result, engine) := engine.dropTable txn table
    (.ofUnit result, engine)
  | .commit txn fault =>
    let (result, engine) := commitWith fault engine txn
    (.ofUnit result, engine)
  | .abort txn =>
    let (result, engine) := engine.abort txn
    (.ofUnit result, engine)

/-- Answer a whole run. -/
def run (hasher : Hasher) (engine : Engine) (ops : List Op) : List Outcome × Engine :=
  Machine.run (step hasher) engine ops

/-- A new database in which one committed transaction created one table. -/
def withTable (hasher : Hasher) (filterCapacity : Nat) (table : TableId) : Engine :=
  (run hasher (create filterCapacity) [.begin, .createTable 1 table, .commit 1 none]).2

/-- The state a new database with one table is in. -/
theorem withTable_eq (hasher : Hasher) (filterCapacity : Nat) (table : TableId) :
    withTable hasher filterCapacity table =
      { nextTxnId := 2
        clog := Clog.empty.markCommitted 1
        catalog := OrderedMap.empty.insert table [Version.live 1 1]
        tables := fun other => if other = 1 then some ⟨1, .empty⟩ else none
        nextHeader := 2
        active := []
        filters := (KeyFilters.new filterCapacity).invalidate table } := rfl

end Engine
end Ferrite.Storage
