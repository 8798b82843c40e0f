import Ferrite.Storage.Visibility

/-!
# What a call can change

The unique check touches only the filters, a row write only the tables besides,
and only `begin`, `commit` and `abort` touch the transaction bookkeeping that
visibility is decided from.
-/

namespace Ferrite.Storage.Engine

open Logical

variable {engine : Engine} {hasher : Hasher} {txn : TxnId} {table : TableId} {header : HeaderId}

/-! ## The unique check -/

variable {op : Op} {before after : Engine} {snap : Snapshot}

private theorem buildFilter_eq (hasher : Hasher) (engine : Engine) (txn : TxnId) (table : TableId)
    (header : HeaderId) (constraint : UniqueKey) : ∃ filters, engine.buildFilter hasher txn table header constraint =
      { engine with filters := filters } := by
  rw [buildFilter]
  split
  · exact ⟨engine.filters, rfl⟩
  · exact ⟨_, rfl⟩

private theorem enforceUnique_eq (hasher : Hasher) (engine : Engine) (txn : TxnId) (table : TableId)
    (header : HeaderId) (row : Row) (exclude : Option RowId) (unique : List UniqueKey) :
    ∃ filters, (engine.enforceUnique hasher txn table header row exclude unique).2 =
      { engine with filters := filters } := by
  induction unique generalizing engine with
  | nil => exact ⟨engine.filters, rfl⟩
  | cons constraint rest ih =>
    rw [enforceUnique]
    split
    · exact ih engine
    · obtain ⟨filters, built⟩ := buildFilter_eq hasher engine txn table header constraint
      simp only [built]
      split
      · exact ⟨filters, rfl⟩
      · obtain ⟨later, isLater⟩ := ih _
        exact ⟨later, isLater⟩

/-- Checking a key changes only the filters. -/
theorem checkUnique_eq (hasher : Hasher) (engine : Engine) (txn : TxnId) (table : TableId)
    (header : HeaderId) (row : Row) (exclude : Option RowId) (unique : List UniqueKey) :
    ∃ filters, (engine.checkUnique hasher txn table header row exclude unique).2 =
      { engine with filters := filters } := by
  rw [checkUnique]
  split
  · exact ⟨_, rfl⟩
  · exact enforceUnique_eq hasher engine txn table header row exclude unique

/-! ## The transaction bookkeeping -/

/-- The state visibility is decided from: the allocator, the commit log and the
open transactions. -/
def bookkeeping (engine : Engine) : TxnId × Clog × List (TxnId × TxnState) :=
  (engine.nextTxnId, engine.clog, engine.active)

@[simp] theorem bookkeeping_storeChain (engine : Engine) (header : HeaderId) (row : RowId)
    (chain : List (Version Row)) :
    (engine.storeChain header row chain).bookkeeping = engine.bookkeeping := by
  rw [storeChain]
  split <;> rfl

@[simp] theorem bookkeeping_allocRowId (engine : Engine) (header : HeaderId) :
    (engine.allocRowId header).2.bookkeeping = engine.bookkeeping := by
  rw [allocRowId]
  split <;> rfl

@[simp] theorem bookkeeping_checkUnique (hasher : Hasher) (engine : Engine) (txn : TxnId)
    (table : TableId) (header : HeaderId) (row : Row) (exclude : Option RowId)
    (unique : List UniqueKey) :
    (engine.checkUnique hasher txn table header row exclude unique).2.bookkeeping =
      engine.bookkeeping := by
  obtain ⟨filters, changed⟩ := checkUnique_eq hasher engine txn table header row exclude unique
  rw [changed]
  rfl

@[simp] theorem bookkeeping_insertUnique (hasher : Hasher) (engine : Engine) (txn : TxnId)
    (table : TableId) (row : Row) (unique : List UniqueKey) :
    (engine.insertUnique hasher txn table row unique).2.bookkeeping = engine.bookkeeping := by
  rw [insertUnique]
  split
  · rfl
  · split
    · rfl
    · rename_i header _
      have checked := bookkeeping_checkUnique hasher engine txn table header row none unique
      split
      · rename_i after isAfter
        rw [isAfter] at checked
        exact checked
      · rename_i after isAfter
        rw [isAfter] at checked
        simpa using checked

@[simp] theorem bookkeeping_updateUnique (hasher : Hasher) (engine : Engine) (txn : TxnId)
    (table : TableId) (row : RowId) (new : Row) (unique : List UniqueKey) :
    (engine.updateUnique hasher txn table row new unique).2.bookkeeping = engine.bookkeeping := by
  rw [updateUnique]
  split
  · rfl
  · split
    · rfl
    · rename_i header _
      have checked := bookkeeping_checkUnique hasher engine txn table header new (some row) unique
      split
      · rename_i after isAfter
        rw [isAfter] at checked
        exact checked
      · rename_i after isAfter
        rw [isAfter] at checked
        dsimp only
        split
        · exact checked
        · simpa using checked

@[simp] theorem bookkeeping_delete (engine : Engine) (txn : TxnId) (table : TableId) (row : RowId) :
    (engine.delete txn table row).2.bookkeeping = engine.bookkeeping := by
  rw [delete]
  split
  · rfl
  · split
    · rfl
    · dsimp only
      split <;> simp

@[simp] theorem bookkeeping_createTable (engine : Engine) (txn : TxnId) (table : TableId) :
    (engine.createTable txn table).2.bookkeeping = engine.bookkeeping := by
  rw [createTable]
  split
  · rfl
  · dsimp only
    split <;> rfl

/-- What one call did to the bookkeeping: ids only grow, an open transaction was
open before or has just begun, and a commit bit was set before or is set now by the
commit of an open transaction. -/
structure TxnStep (op : Op) (before after : Engine) : Prop where
  grows : before.nextTxnId ≤ after.nextTxnId
  opened : ∀ txn state, after.active.lookup txn = some state →
    (txn = before.nextTxnId ∧ txn < after.nextTxnId ∧ state.snapshot.txnId = txn) ∨
      ∃ old, before.active.lookup txn = some old ∧ (state.snapshot = old.snapshot ∨ state.snapshot.txnId = txn)
  committed : ∀ xid, after.isCommitted xid = true →
    before.isCommitted xid = true ∨ (before.isActive xid = true ∧ ∃ fault, op = .commit xid fault)
  keeps : ∀ xid, before.isCommitted xid = true → after.isCommitted xid = true

/-- A step that leaves the commit log alone. -/
theorem TxnStep.of_sameClog (grows : before.nextTxnId ≤ after.nextTxnId)
    (opened : ∀ txn state, after.active.lookup txn = some state →
      (txn = before.nextTxnId ∧ txn < after.nextTxnId ∧ state.snapshot.txnId = txn) ∨
        ∃ old, before.active.lookup txn = some old ∧
          (state.snapshot = old.snapshot ∨ state.snapshot.txnId = txn)) (sameClog : after.clog = before.clog) :
    TxnStep op before after := by
  have same : after.isCommitted = before.isCommitted := by
    funext xid
    rw [isCommitted, isCommitted, sameClog]
  exact ⟨grows, opened, fun xid committed => Or.inl (same ▸ committed), fun xid committed => same ▸ committed⟩

private theorem TxnStep.of_same (same : after.bookkeeping = before.bookkeeping) : TxnStep op before after := by
  simp only [bookkeeping, Prod.mk.injEq] at same
  obtain ⟨sameNext, sameClog, sameActive⟩ := same
  refine TxnStep.of_sameClog (le_of_eq sameNext.symm) ?_ sameClog
  intro txn state opened
  rw [sameActive] at opened
  exact Or.inr ⟨state, opened, Or.inl rfl⟩

private theorem opened_of_close {txn : TxnId} (closed : after.active = (before.close txn).active) :
    ∀ probe state, after.active.lookup probe = some state →
      (probe = before.nextTxnId ∧ probe < after.nextTxnId ∧ state.snapshot.txnId = probe) ∨
        ∃ old, before.active.lookup probe = some old ∧
          (state.snapshot = old.snapshot ∨ state.snapshot.txnId = probe) := by
  intro probe state opened
  rw [closed, lookup_close] at opened
  split at opened
  · simp at opened
  · exact Or.inr ⟨state, opened, Or.inl rfl⟩

@[simp] theorem reclaim_bookkeeping (engine : Engine) (dropped : List HeaderId) :
    (engine.reclaim dropped).2.bookkeeping = engine.bookkeeping := by
  induction dropped generalizing engine with
  | nil => rfl
  | cons header rest ih =>
    rw [reclaim]
    split
    · rfl
    · exact ih _

/-- What the later part of a commit leaves of the bookkeeping. -/
theorem finishCommit_bookkeeping (fault : Option CommitFault) (engine : Engine) (txn : TxnId)
    (dropped : List HeaderId) : (finishCommit fault engine txn dropped).2.bookkeeping = engine.bookkeeping ∨
      (finishCommit fault engine txn dropped).2.bookkeeping = (engine.close txn).bookkeeping := by
  unfold finishCommit
  split
  · exact Or.inl rfl
  · split
    · exact Or.inl rfl
    · exact Or.inl rfl
    · exact Or.inr rfl
    · split
      · exact Or.inr (reclaim_bookkeeping _ _)
      · exact Or.inr rfl

theorem commitWith_txnStep (engine : Engine) (txn : TxnId) (fault : Option CommitFault) :
    TxnStep (.commit txn fault) engine (commitWith fault engine txn).2 := by
  unfold commitWith
  split
  · exact TxnStep.of_same rfl
  · rename_i state opened
    have running : engine.isActive txn = true := by simp [isActive, opened]
    have marked : ∀ xid, (engine.clog.markCommitted txn).isCommitted xid = true → engine.isCommitted xid = true ∨
          (engine.isActive xid = true ∧ ∃ fault', Op.commit txn fault = .commit xid fault') := by
      intro xid committed
      rw [Clog.isCommitted_markCommitted] at committed
      rcases Bool.or_eq_true_iff.mp committed with now | before
      · obtain rfl := of_decide_eq_true now
        exact Or.inr ⟨running, fault, rfl⟩
      · exact Or.inl before
    have keeps : ∀ xid, engine.isCommitted xid = true → (engine.clog.markCommitted txn).isCommitted xid = true := by
      intro xid before
      rw [Clog.isCommitted_markCommitted]
      exact Bool.or_eq_true_iff.mpr (Or.inr before)
    split
    · refine ⟨le_refl _, fun probe found isOpen => Or.inr ⟨found, isOpen, Or.inl rfl⟩, ?_, ?_⟩
      · intro xid committed
        rw [isCommitted, Clog.isCommitted_allocate] at committed
        exact Or.inl committed
      · intro xid committed
        rw [isCommitted, Clog.isCommitted_allocate]
        exact committed
    · rcases finishCommit_bookkeeping fault { engine with clog := engine.clog.markCommitted txn } txn
        state.dropped with same | same <;>
      · simp only [bookkeeping, Prod.mk.injEq] at same
        obtain ⟨sameNext, sameClog, sameActive⟩ := same
        refine ⟨le_of_eq sameNext.symm, ?_, ?_, ?_⟩
        · first
            | exact opened_of_close sameActive
            | intro probe found isOpen
              rw [sameActive] at isOpen
              exact Or.inr ⟨found, isOpen, Or.inl rfl⟩
        · intro xid committed
          rw [isCommitted, sameClog] at committed
          exact marked xid committed
        · intro xid committed
          rw [isCommitted, sameClog]
          exact keeps xid committed

/-- A drop notes the header it will reclaim, in the transaction that dropped it. -/
theorem dropTable_bookkeeping (engine : Engine) (txn : TxnId) (table : TableId) :
    (engine.dropTable txn table).2.bookkeeping = engine.bookkeeping ∨
      ∃ header, (engine.dropTable txn table).2.nextTxnId = engine.nextTxnId ∧
        (engine.dropTable txn table).2.clog = engine.clog ∧
        ∀ probe, (engine.dropTable txn table).2.active.lookup probe =
          if probe = txn then
            (engine.active.lookup probe).map fun state =>
              { state with dropped := state.dropped ++ [header] }
          else engine.active.lookup probe := by
  unfold dropTable
  split
  · exact Or.inl rfl
  · split
    · exact Or.inl rfl
    · rename_i newest older _
      split
      · exact Or.inl rfl
      · exact Or.inl rfl
      · refine Or.inr ⟨newest.payload, rfl, rfl, fun probe => ?_⟩
        exact lookup_map_at engine.active txn probe fun state =>
          { state with dropped := state.dropped ++ [newest.payload] }

theorem step_txnStep (hasher : Hasher) (engine : Engine) (op : Op) : TxnStep op engine (engine.step hasher op).2 := by
  cases op with
  | begin =>
    refine TxnStep.of_sameClog (Nat.le_succ _) ?_ rfl
    intro txn state opened
    change engine.begin.2.active.lookup txn = some state at opened
    rw [lookup_begin] at opened
    cases before : engine.active.lookup txn with
    | some old =>
      rw [before, Option.some_or] at opened
      exact Or.inr ⟨old, rfl, Or.inl (by rw [Option.some.inj opened])⟩
    | none =>
      rw [before, Option.none_or] at opened
      split at opened
      · rename_i new
        obtain rfl := Option.some.inj opened
        exact Or.inl ⟨new, new ▸ Nat.lt_succ_self _, new.symm⟩
      · simp at opened
  | snapshot txn =>
    by_cases running : engine.isActive txn = true
    · have same : (engine.snapshot txn).2.nextTxnId = engine.nextTxnId ∧
          (engine.snapshot txn).2.clog = engine.clog := by
        simp [snapshot, running]
      refine TxnStep.of_sameClog (le_of_eq same.1.symm) ?_ same.2
      intro probe state opened
      change (engine.snapshot txn).2.active.lookup probe = some state at opened
      rw [lookup_snapshot running] at opened
      split at opened
      · rename_i atTxn
        subst atTxn
        obtain ⟨old, found, rfl⟩ := Option.map_eq_some_iff.mp opened
        exact Or.inr ⟨old, found, Or.inr rfl⟩
      · exact Or.inr ⟨state, opened, Or.inl rfl⟩
    · have same : (engine.step hasher (.snapshot txn)).2 = engine := by
        simp [step, snapshot, running]
      exact TxnStep.of_same (by rw [same])
  | insertUnique txn table row unique =>
    exact TxnStep.of_same (bookkeeping_insertUnique hasher engine txn table row unique)
  | updateUnique txn table row new unique =>
    exact TxnStep.of_same (bookkeeping_updateUnique hasher engine txn table row new unique)
  | delete txn table row => exact TxnStep.of_same (bookkeeping_delete engine txn table row)
  | get txn table row => exact TxnStep.of_same rfl
  | scan txn table => exact TxnStep.of_same rfl
  | createTable txn table => exact TxnStep.of_same (bookkeeping_createTable engine txn table)
  | dropTable txn table =>
    rcases dropTable_bookkeeping engine txn table with same | ⟨header, sameNext, sameClog, noted⟩
    · exact TxnStep.of_same same
    · refine TxnStep.of_sameClog (le_of_eq sameNext.symm) ?_ sameClog
      intro probe state opened
      change (engine.dropTable txn table).2.active.lookup probe = some state at opened
      rw [noted] at opened
      split at opened
      · obtain ⟨old, found, rfl⟩ := Option.map_eq_some_iff.mp opened
        exact Or.inr ⟨old, found, Or.inl rfl⟩
      · exact Or.inr ⟨state, opened, Or.inl rfl⟩
  | commit txn fault => exact commitWith_txnStep engine txn fault
  | abort txn =>
    by_cases running : engine.isActive txn = true
    · have result : (engine.step hasher (.abort txn)).2 = engine.close txn := by
        simp [step, abort, running]
      rw [result]
      exact TxnStep.of_sameClog (le_refl _) (opened_of_close rfl) rfl
    · have same : (engine.step hasher (.abort txn)).2 = engine := by
        simp [step, abort, running]
      exact TxnStep.of_same (by rw [same])

/-! ## Issued ids -/

/-- Open transactions have issued ids and pinned snapshots of their own. -/
structure TxnsOk (engine : Engine) : Prop where
  started : 0 < engine.nextTxnId
  issued : ∀ txn state, engine.active.lookup txn = some state →
    txn ≠ noTxn ∧ txn < engine.nextTxnId ∧ state.snapshot.txnId = txn

theorem txnsOk_create (filterCapacity : Nat) : TxnsOk (create filterCapacity) := ⟨Nat.one_pos, by simp [create]⟩

private theorem TxnsOk.of_txnStep (ok : TxnsOk engine) (effect : TxnStep op engine after) : TxnsOk after := by
  refine ⟨lt_of_lt_of_le ok.started effect.grows, ?_⟩
  intro txn state opened
  rcases effect.opened txn state opened with ⟨new, below, pinned⟩ | ⟨old, before, snapshot⟩
  · exact ⟨new ▸ Nat.ne_of_gt ok.started, below, pinned⟩
  · obtain ⟨real, below, pinned⟩ := ok.issued txn old before
    refine ⟨real, lt_of_lt_of_le below effect.grows, ?_⟩
    rcases snapshot with same | own
    · rw [same, pinned]
    · exact own

theorem TxnsOk.step (ok : TxnsOk engine) (hasher : Hasher) (op : Op) :
    TxnsOk (engine.step hasher op).2 := ok.of_txnStep (step_txnStep hasher engine op)

theorem TxnsOk.run (ok : TxnsOk engine) (hasher : Hasher) (ops : List Op) : TxnsOk (engine.run hasher ops).2 :=
  Machine.run_invariant (fun _ op before _ => before.step hasher op) ok
    (Machine.meets_of_forall (fun _ _ _ => trivial) engine)

theorem isActive_of_snapshotOf (pinned : engine.snapshotOf txn = .ok snap) : engine.isActive txn = true := by
  unfold snapshotOf at pinned
  split at pinned
  · rename_i state opened
    simp [isActive, opened]
  · simp at pinned

/-! ## Stored chains -/

/-- A name that resolves leads to the header of a stored table. -/
theorem tableRef_ok (resolved : engine.tableRef snap table = .ok header) :
    ∃ chain stored, engine.catalog.find? table = some chain ∧
      engine.visibleVersion snap chain = some header ∧ engine.tables header = some stored := by
  unfold tableRef at resolved
  split at resolved
  · simp at resolved
  · rename_i chain found
    split at resolved
    · simp at resolved
    · rename_i named visible
      split at resolved
      · simp at resolved
      · rename_i stored isStored
        obtain rfl : named = header := by simpa using resolved
        exact ⟨chain, stored, found, visible, isStored⟩

/-- A name with a single catalog version resolves to that version's header. -/
theorem tableRef_singleton {version : Version HeaderId} (single : engine.catalog.find? table = some [version])
    (resolved : engine.tableRef snap table = .ok header) :
    header = version.payload ∧ ∃ stored, engine.tables header = some stored := by
  obtain ⟨chain, stored, found, visible, isStored⟩ := tableRef_ok resolved
  obtain rfl : [version] = chain := by simpa [single] using found
  refine ⟨?_, stored, isStored⟩
  rw [visibleVersion_eq_selectVersion, selectVersion_cons] at visible
  split at visible
  · exact (Option.some.inj visible).symm
  · cases visible

/-- Storing a nonempty chain replaces the chain of one row of one table. -/
theorem storeChain_of_ne_nil {stored : Table} {row : RowId} {chain : List (Version Row)}
    (found : engine.tables header = some stored) (nonempty : chain ≠ []) :
    engine.storeChain header row chain =
      { engine with
        tables := fun other => if other = header then
          some ⟨stored.nextRow, stored.rows.insert row chain⟩ else engine.tables other } := by
  simp [storeChain, found, nonempty]

theorem loadChain_storeChain {stored : Table} {row : RowId} {chain : List (Version Row)}
    (found : engine.tables header = some stored) (nonempty : chain ≠ []) (probe : HeaderId)
    (probeRow : RowId) :
    (engine.storeChain header row chain).loadChain probe probeRow =
      if probe = header ∧ probeRow = row then chain else engine.loadChain probe probeRow := by
  rw [storeChain_of_ne_nil found nonempty]
  by_cases here : probe = header
  · subst here
    by_cases same : probeRow = row <;> simp [loadChain, rowsOf, found, same]
  · simp [loadChain, rowsOf, here]

@[simp] theorem loadChain_allocRowId (engine : Engine) (header probe : HeaderId) (row : RowId) :
    (engine.allocRowId header).2.loadChain probe row = engine.loadChain probe row := by
  unfold allocRowId
  split
  · rfl
  · rename_i stored found
    by_cases here : probe = header
    · subst here
      simp [loadChain, rowsOf, found]
    · simp [loadChain, rowsOf, here]

theorem supersede_ne_nil {α : Type} {new : α} {newest : Version α} {older : List (Version α)} :
    supersede txn new (newest :: older) ≠ [] := by
  rw [supersede]
  split <;> simp

theorem markDeleted_ne_nil {α : Type} {newest : Version α} {older : List (Version α)} :
    markDeleted txn (newest :: older) ≠ [] := by
  simp [markDeleted]

end Ferrite.Storage.Engine
