import Ferrite.Storage.RowSteps
import Ferrite.Storage.Scan

/-!
# The engine simulates the commit-order model

`Related` ties an engine with one committed table to a state of the reference
model. The commit order is not stored anywhere in the engine, so the relation
carries it; a snapshot's id arithmetic is tied to it by `TxnRel`.
-/

namespace Ferrite.Storage

open CommitOrder

/-- An open transaction: its snapshot draws the line the model's sequence number
draws, and everybody running beside it lies beyond that line. -/
structure TxnRel (order : CommitOrder) (engine : Engine) (txn : TxnId) (opened : TxnState)
    (state : ModelTxn) : Prop where
  pinned : opened.snapshot.txnId = txn
  nothingDropped : opened.dropped = []
  issued : opened.snapshot.xmin ≤ engine.nextTxnId
  sorted : opened.snapshot.activeAtStart.Pairwise (· ≤ ·)
  boundary : ∀ xid at_, order xid = some at_ →
    (xid < opened.snapshot.xmin ∧ xid ∉ opened.snapshot.activeAtStart ↔ at_ ≤ state.beginSeq)
  rivals : ∀ other, engine.isActive other = true → other ≠ txn →
    opened.snapshot.xmin ≤ other ∨ other ∈ opened.snapshot.activeAtStart

/-- An engine whose table `table` has header 1 and was created by transaction 1,
against a state of the reference model. -/
structure Related (table : TableId) (order : CommitOrder) (engine : Engine) (model : Model) :
    Prop where
  ordered : OrderOk order model
  nextTxn : engine.nextTxnId = model.nextTxn
  committed : ∀ xid, engine.isCommitted xid = (order xid).isSome
  directory : engine.clog.segments ≤ clogDirectoryCapacity
  opened : ∀ txn, engine.isActive txn = (model.txns txn).isSome
  txns : ∀ txn opened state, engine.active.lookup txn = some opened →
    model.txns txn = some state → TxnRel order engine txn opened state
  creator : order 1 = some 0
  catalog : engine.catalog.find? table = some [⟨1, noTxn, 1⟩]
  header : ∃ stored, engine.tables 1 = some stored ∧ stored.nextRow = model.nextRow
  rows : ∀ row, RowRel order model row (cleanBy engine.isAborted (engine.loadChain 1 row))
  below : ∀ row, ∀ version ∈ engine.loadChain 1 row, version.xmin < engine.nextTxnId ∧ version.xmax < engine.nextTxnId
  fresh : ∀ row, model.nextRow ≤ row → (engine.rowsOf 1).find? row = none ∧ model.rows row = ⟨[], none⟩

namespace TxnRel

variable {order : CommitOrder} {engine engine' : Engine} {txn : TxnId} {opened : TxnState}
  {state : ModelTxn}

/-- The snapshot of a transaction sees itself and what committed before it. -/
theorem visibleTxn_eq (rel : TxnRel order engine txn opened state) (real : txn ≠ noTxn) (noneOpen : order noTxn = none)
    (committed : ∀ xid, engine.isCommitted xid = (order xid).isSome) (xid : TxnId) :
    engine.visibleTxn opened.snapshot xid = order.ownSees txn state.beginSeq xid := by
  rw [Engine.visibleTxn, rel.pinned, committed, ownSees]
  by_cases none : xid = noTxn
  · simp [none, Ne.symm real, sees_of_none noneOpen]
  · by_cases own : xid = txn
    · simp [own, real]
    · cases found : order xid with
      | none => simp [none, own, sees, found]
      | some at_ =>
        have line := rel.boundary xid at_ found
        by_cases beyond : opened.snapshot.xmin ≤ xid ∨ xid ∈ opened.snapshot.activeAtStart
        · have unseen : ¬at_ ≤ state.beginSeq := by
            rw [← line]
            rintro ⟨below, notRunning⟩
            rcases beyond with above | running
            · exact absurd below (not_lt.mpr above)
            · exact notRunning running
          simp [none, own, beyond, sees, found, unseen]
        · obtain ⟨below, notRunning⟩ := not_or.mp beyond
          have seen : at_ ≤ state.beginSeq := line.mp ⟨not_le.mp below, notRunning⟩
          simp [none, own, below, notRunning, sees, found, seen]

/-- What lies below the floor of a snapshot and committed is seen by it. -/
theorem seen_of_lt_floor (rel : TxnRel order engine txn opened state) {xid : TxnId} {at_ : Nat}
    (found : order xid = some at_) (below : xid < Engine.snapshotFloor opened.snapshot) : at_ ≤ state.beginSeq := by
  refine (rel.boundary xid at_ found).mp ⟨?_, fun running => ?_⟩
  · exact lt_of_lt_of_le below (Engine.snapshotFloor_le_xmin _)
  · exact absurd (Engine.snapshotFloor_le_of_mem rel.sorted running) (not_le.mpr below)

/-- The line stays where it is while others come, go and commit. -/
theorem transport (rel : TxnRel order engine txn opened state) {order' : CommitOrder}
    {state' : ModelTxn} (sameLine : state'.beginSeq = state.beginSeq)
    (nextGrows : engine.nextTxnId ≤ engine'.nextTxnId)
    (newActive : ∀ other, engine'.isActive other = true → engine.isActive other = true ∨ engine.nextTxnId ≤ other)
    (newCommits : ∀ xid at_, order' xid = some at_ → order xid = some at_ ∨
      (engine.isActive xid = true ∧ xid ≠ txn ∧ state.beginSeq < at_)) :
    TxnRel order' engine' txn opened state' where
  pinned := rel.pinned
  nothingDropped := rel.nothingDropped
  issued := le_trans rel.issued nextGrows
  sorted := rel.sorted
  boundary xid at_ found := by
    rw [sameLine]
    rcases newCommits xid at_ found with before | ⟨running, other, later⟩
    · exact rel.boundary xid at_ before
    · refine iff_of_false ?_ (not_le.mpr later)
      rintro ⟨below, notRunning⟩
      rcases rel.rivals xid running other with above | inList
      · exact absurd below (not_lt.mpr above)
      · exact notRunning inList
  rivals other running different := by
    rcases newActive other running with before | above
    · exact rel.rivals other before different
    · exact Or.inl (le_trans rel.issued above)

end TxnRel

namespace Related

variable {table : TableId} {order : CommitOrder} {engine : Engine} {model : Model} {txn : TxnId}

/-- The two sides agree on which transactions are open. -/
theorem open_iff (rel : Related table order engine model) (txn : TxnId) :
    (engine.active.lookup txn = none ∧ model.txns txn = none) ∨
      ∃ opened state, engine.active.lookup txn = some opened ∧ model.txns txn = some state ∧
        TxnRel order engine txn opened state := by
  have same := rel.opened txn
  unfold Engine.isActive at same
  cases inEngine : engine.active.lookup txn with
  | none =>
    refine Or.inl ⟨rfl, ?_⟩
    simpa [inEngine] using same
  | some opened =>
    obtain ⟨state, inModel⟩ : ∃ state, model.txns txn = some state := by
      rw [← Option.isSome_iff_exists, ← same, inEngine]
      rfl
    exact Or.inr ⟨opened, state, rfl, inModel, rel.txns txn opened state inEngine inModel⟩

theorem isAborted_eq (rel : Related table order engine model) (xid : TxnId) : engine.isAborted xid =
      (decide (xid ≠ noTxn) && !(model.txns xid).isSome && !(order xid).isSome) := by
  rw [Engine.isAborted, rel.opened, rel.committed]
  by_cases none : xid = noTxn
  · simp [none]
  · cases model.txns xid <;> simp [none]

/-- Ids of a chain in commit order are not aborted. -/
theorem alive (rel : Related table order engine model) {row : RowId} {chain : List (Version Row)}
    (rowRel : RowRel order model row chain) {xid : TxnId} (mentioned : Mentions chain xid) :
    engine.isAborted xid = false := by
  rw [rel.isAborted_eq]
  rcases rowRel.inOrder.known mentioned with none | committed | waiting
  · simp [none]
  · simp [committed]
  · obtain ⟨state, -, opened, -⟩ := rowRel.owner xid waiting
    simp [opened]

/-- Pruning keeps the row relation: what it drops, everybody sees deleted. -/
theorem pruned (rel : Related table order engine model) (row : RowId) :
    RowRel order model row (engine.prune (engine.loadChain 1 row)) := by
  rw [Engine.prune, Engine.pruneBelow_eq]
  refine (rel.rows row).filter rel.ordered fun version _ gone => ?_
  obtain ⟨⟨-, below⟩, isCommitted⟩ : (version.xmax ≠ noTxn ∧ version.xmax < engine.pruneHorizon) ∧
      engine.isCommitted version.xmax = true := by
    simpa [Engine.expired] using gone
  rw [rel.committed] at isCommitted
  obtain ⟨deleted, found⟩ := Option.isSome_iff_exists.mp isCommitted
  refine ⟨deleted, found, ?_⟩
  rintro seq (rfl | ⟨reader, state, opened, rfl⟩)
  · exact rel.ordered.past _ _ found
  · rcases rel.open_iff reader with ⟨-, closed⟩ | ⟨txnState, state', inEngine, inModel, txnRel⟩
    · simp [closed] at opened
    · obtain rfl : state = state' := by simpa [opened] using inModel
      exact txnRel.seen_of_lt_floor found (lt_of_lt_of_le below (Engine.pruneHorizon_le inEngine))

/-- The table is visible in every snapshot. -/
theorem tableRef_eq (rel : Related table order engine model) {opened : TxnState}
    {state : ModelTxn} (inModel : model.txns txn = some state) (txnRel : TxnRel order engine txn opened state) :
    engine.tableRef opened.snapshot table = .ok 1 := by
  obtain ⟨stored, header, -⟩ := rel.header
  obtain ⟨-, real, -⟩ := rel.ordered.unresolved txn state inModel
  have visible := txnRel.visibleTxn_eq real rel.ordered.noneOpen rel.committed
  have creatorSeen : order.ownSees txn state.beginSeq 1 = true := by
    simp [ownSees, sees, rel.creator]
  simp [Engine.tableRef, rel.catalog, Engine.visibleVersion, visible, creatorSeen, header]

theorem nextTxn_closed (rel : Related table order engine model) : model.txns engine.nextTxnId = none := by
  cases opened : model.txns engine.nextTxnId with
  | none => rfl
  | some state =>
    have issued := (rel.ordered.unresolved _ state opened).2.2.1
    exact absurd rel.nextTxn (ne_of_lt issued)

/-- A snapshot taken now draws the line at the model's current sequence number. -/
theorem takeSnapshot_line (rel : Related table order engine model) (current : Engine)
    (sameActive : current.active = engine.active) (nextGrows : engine.nextTxnId ≤ current.nextTxnId)
    (txn : TxnId) {xid : TxnId} {at_ : Nat} (found : order xid = some at_) :
    xid < (current.takeSnapshot txn).xmin ∧ xid ∉ (current.takeSnapshot txn).activeAtStart ↔ at_ ≤ model.seq := by
  refine iff_of_true ⟨?_, ?_⟩ (rel.ordered.past xid at_ found)
  · have issued := rel.ordered.issued xid at_ found
    exact lt_of_lt_of_le (rel.nextTxn ▸ issued) nextGrows
  · rw [Engine.mem_activeAtStart, Engine.isActive, sameActive]
    rintro ⟨running, -⟩
    change engine.isActive xid = true at running
    rw [rel.opened] at running
    obtain ⟨state, opened⟩ := Option.isSome_iff_exists.mp running
    simp [(rel.ordered.unresolved xid state opened).1] at found

end Related

end Ferrite.Storage
