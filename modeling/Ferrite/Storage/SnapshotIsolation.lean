import Ferrite.Storage.SimulationRows

/-!
# Snapshot isolation

Every result of every run over one table is the result of the commit-order
reference model, as long as no transaction id at or above the ceiling of the
commit log commits.
-/

namespace Ferrite.Storage

open Logical RowOp Outcome

variable {table : TableId} {engine : Engine} {model : Model}

/-- The two sides are related under some commit order. -/
def Simulates (table : TableId) (engine : Engine) (model : Model) : Prop := ∃ order, Related table order engine model

/-- The order in which a new database committed its one transaction. -/
def setupOrder : CommitOrder := fun xid => if xid = 1 then some 0 else none

theorem simulates_withTable (hasher : Hasher) (filterCapacity : Nat) (table : TableId) :
    Simulates table (Engine.withTable hasher filterCapacity table) Model.initial := by
  rw [Engine.withTable_eq]
  refine ⟨setupOrder, ?_⟩
  have only : ∀ {xid at_}, setupOrder xid = some at_ → xid = 1 ∧ at_ = 0 := by
    intro xid at_ found
    by_cases first : xid = 1
    · simp_all [setupOrder]
    · simp [setupOrder, first] at found
  constructor
  · refine ⟨rfl, ?_, ?_, by simp [Model.initial]⟩
    · intro xid at_ found
      simp [(only found).2]
    · intro xid at_ found
      simp [(only found).1, Model.initial]
  · rfl
  · intro xid
    rw [Engine.isCommitted, Clog.isCommitted_markCommitted]
    by_cases first : xid = 1 <;> simp [setupOrder, first, Clog.empty, Clog.isCommitted]
  · change (Clog.empty.markCommitted 1).segments ≤ clogDirectoryCapacity
    decide
  · intro txn
    rfl
  · intro txn opened state inEngine
    simp at inEngine
  · rfl
  · simp [Version.live]
  · exact ⟨_, rfl, rfl⟩
  · intro row
    refine ⟨ChainOk.nil, ?_, ?_, by simp [Model.initial], by simp [Model.initial], by simp [Model.initial]⟩
    · intro seq _
      rfl
    · intro seq _
      refine iff_of_false (by simp [Model.hasNewerCommit, Model.initial]) ?_
      rintro ⟨xid, at_, ⟨version, member, -⟩, -⟩
      simp [Engine.loadChain, Engine.rowsOf, cleanBy] at member
  · intro row version member
    simp [Engine.loadChain, Engine.rowsOf] at member
  · intro row _
    exact ⟨rfl, rfl⟩

/-- One call answers alike on both sides, except for a commit beyond the ceiling. -/
theorem Simulates.step (rel : Simulates table engine model) (hasher : Hasher) (op : RowOp)
    (belowCeiling : ∀ txn, op = .commit txn → txn < maxTxnId) :
    (engine.step hasher (op.onTable table)).1 = (model.step op).1 ∧
      Simulates table (engine.step hasher (op.onTable table)).2 (model.step op).2 := by
  obtain ⟨order, rel⟩ := rel
  -- A closed transaction is refused by every call before anything else happens.
  have closed : ∀ {txn}, engine.active.lookup txn = none → engine.snapshotOf txn = .error (.txnNotActive txn) := by
    intro txn none
    simp [Engine.snapshotOf, none]
  cases op with
  | begin =>
    obtain ⟨sameTxn, next⟩ := rel.begin
    exact ⟨congrArg began sameTxn, order, next⟩
  | snapshot txn =>
    rcases rel.open_iff txn with ⟨inEngine, inModel⟩ | ⟨opened, state, inEngine, inModel, -⟩
    · simp only [onTable, Engine.step, Model.step, Model.withTxn, inModel, Engine.snapshot,
        Engine.isActive, inEngine]
      exact ⟨rfl, order, rel⟩
    · have next := rel.snapshot inEngine inModel
      simp only [onTable, Engine.step, Model.step, Model.withTxn, inModel]
      refine ⟨?_, order, next⟩
      simp [Engine.snapshot, Engine.isActive, inEngine, Except.map, ofUnit]
  | insert txn row =>
    rcases rel.open_iff txn with ⟨inEngine, inModel⟩ | ⟨opened, state, inEngine, inModel, -⟩
    · simp only [onTable, Engine.step, Model.step, Model.withTxn, inModel, Engine.insertUnique, closed inEngine]
      exact ⟨rfl, order, rel⟩
    · obtain ⟨same, next⟩ := rel.insert hasher inEngine inModel row
      simp only [onTable, Engine.step, Model.step, Model.withTxn, inModel]
      exact ⟨same, order, next⟩
  | update txn row new =>
    rcases rel.open_iff txn with ⟨inEngine, inModel⟩ | ⟨opened, state, inEngine, inModel, -⟩
    · simp only [onTable, Engine.step, Model.step, Model.withTxn, inModel, Engine.updateUnique, closed inEngine]
      exact ⟨rfl, order, rel⟩
    · obtain ⟨same, next⟩ := rel.update hasher inEngine inModel row new
      simp only [onTable, Engine.step, Model.step, Model.withTxn, inModel]
      exact ⟨same, order, next⟩
  | delete txn row =>
    rcases rel.open_iff txn with ⟨inEngine, inModel⟩ | ⟨opened, state, inEngine, inModel, -⟩
    · simp only [onTable, Engine.step, Model.step, Model.withTxn, inModel, Engine.delete, closed inEngine]
      exact ⟨rfl, order, rel⟩
    · obtain ⟨same, next⟩ := rel.delete inEngine inModel row
      simp only [onTable, Engine.step, Model.step, Model.withTxn, inModel]
      exact ⟨same, order, next⟩
  | get txn row =>
    rcases rel.open_iff txn with ⟨inEngine, inModel⟩ | ⟨opened, state, inEngine, inModel, -⟩
    · simp only [onTable, Engine.step, Model.step, Model.withTxn, inModel, Engine.get, closed inEngine]
      exact ⟨rfl, order, rel⟩
    · simp only [onTable, Engine.step, Model.step, Model.withTxn, inModel]
      exact ⟨rel.get_eq inEngine inModel row, order, rel⟩
  | scan txn =>
    rcases rel.open_iff txn with ⟨inEngine, inModel⟩ | ⟨opened, state, inEngine, inModel, -⟩
    · simp only [onTable, Engine.step, Model.step, Model.withTxn, inModel, Engine.scan, closed inEngine]
      exact ⟨rfl, order, rel⟩
    · simp only [onTable, Engine.step, Model.step, Model.withTxn, inModel]
      exact ⟨rel.scan_eq inEngine inModel, order, rel⟩
  | commit txn =>
    rcases rel.open_iff txn with ⟨inEngine, inModel⟩ | ⟨opened, state, inEngine, inModel, -⟩
    · simp only [onTable, Engine.step, Model.step, Model.withTxn, inModel, Engine.commitWith, inEngine]
      exact ⟨rfl, order, rel⟩
    · obtain ⟨same, next⟩ := rel.commit inEngine inModel (belowCeiling txn rfl)
      simp only [onTable, Engine.step, Model.step, Model.withTxn, inModel]
      exact ⟨by rw [same]; rfl, _, next⟩
  | abort txn =>
    rcases rel.open_iff txn with ⟨inEngine, inModel⟩ | ⟨opened, state, inEngine, inModel, -⟩
    · simp only [onTable, Engine.step, Model.step, Model.withTxn, inModel, Engine.abort,
        Engine.isActive, inEngine]
      exact ⟨rfl, order, rel⟩
    · simp only [onTable, Engine.step, Model.step, Model.withTxn, inModel, Engine.abort,
        Engine.isActive, inEngine]
      exact ⟨rfl, order, rel.abort inModel⟩

/-- A whole run answers alike on both sides and ends in related states. -/
theorem Simulates.run (rel : Simulates table engine model) (hasher : Hasher) {ops : List RowOp}
    (belowCeiling : ∀ txn, commit txn ∈ ops → txn < maxTxnId) :
    (engine.run hasher (ops.map (onTable table))).1 = (model.run ops).1 ∧
      Simulates table (engine.run hasher (ops.map (onTable table))).2 (model.run ops).2 := by
  have simulates : ∀ engine model op, Simulates table engine model → (∀ txn, op = commit txn → txn < maxTxnId) →
        (engine.step hasher (op.onTable table)).1 = (model.step op).1 ∧
          Simulates table (engine.step hasher (op.onTable table)).2 (model.step op).2 :=
    fun _ _ op related below => related.step hasher op below
  refine Machine.run_simulation simulates rel (Machine.meets_of_forall ?_ engine)
  intro op member _ txn isCommit
  exact belowCeiling txn (isCommit ▸ member)

/-- Snapshot isolation: over one table, every call of every run of interleaved
transactions returns what the commit-order reference model returns. -/
theorem run_refines_commit_order (hasher : Hasher) (filterCapacity : Nat) (table : TableId)
    (ops : List RowOp) (belowCeiling : ∀ txn, commit txn ∈ ops → txn < maxTxnId) :
    ((Engine.withTable hasher filterCapacity table).run hasher (ops.map (onTable table))).1 =
      (Model.initial.run ops).1 :=
  ((simulates_withTable hasher filterCapacity table).run hasher belowCeiling).1

/-- Two writers of one row, an abort and a later reader. -/
def twoWriters : List RowOp :=
  [.begin, .insert 2 ⟨[.int8 7]⟩, .commit 2, .begin, .begin, .update 3 1 ⟨[.int8 8]⟩, .delete 4 1,
    .abort 3, .delete 4 1, .commit 4, .begin, .scan 5]

theorem twoWriters_refines_commit_order : (∀ txn, commit txn ∈ twoWriters → txn < maxTxnId) ∧
      ((Engine.withTable (fun _ => 0) 16 1).run (fun _ => 0) (twoWriters.map (onTable 1))).1 =
        (Model.initial.run twoWriters).1 := by
  have belowCeiling : ∀ txn, commit txn ∈ twoWriters → txn < maxTxnId := by
    intro txn member
    have small : txn = 2 ∨ txn = 4 := by simpa [twoWriters] using member
    rcases small with rfl | rfl <;> decide
  exact ⟨belowCeiling, run_refines_commit_order (fun _ => 0) 16 1 twoWriters belowCeiling⟩

/-! ## Repeated reads -/

/-- A call that only reads, or is somebody else's. -/
def RowOp.Foreign (txn : TxnId) : RowOp → Prop
  | .begin | .get _ _ | .scan _ => True
  | .snapshot other | .insert other _ | .update other _ _ | .delete other _ | .commit other | .abort other => other ≠ txn

/-- An open transaction sees what it saw at first. -/
structure Model.Sees (txn : TxnId) (state : ModelTxn) (first model : Model) : Prop where
  isOpen : model.txns txn = some state
  issued : txn < model.nextTxn
  past : state.beginSeq ≤ model.seq
  grown : first.nextRow ≤ model.nextRow
  view : ∀ row, model.view state row = first.view state row

namespace Model.Sees

variable {txn other : TxnId} {state writer : ModelTxn} {first : Model}

private theorem recordWrite (sees : Sees txn state first model) (different : other ≠ txn) (row : RowId)
    (value : Option Row) :
    Sees txn state first (model.recordWrite other writer row value) := by
  refine ⟨(if_neg different.symm).trans sees.isOpen, sees.issued, sees.past, sees.grown, fun probe => ?_⟩
  rw [← sees.view probe]
  by_cases same : probe = row <;> simp [Model.view, Model.recordWrite, same, committedAt]

/-- What others write is pending, and what they commit is later than the snapshot. -/
theorem step {op : RowOp} (sees : Sees txn state first model) (foreign : op.Foreign txn) :
    Sees txn state first (model.step op).2 := by
  have withTxn {other : TxnId} {act : ModelTxn → Outcome × Model}
      (acts : ∀ writer, Sees txn state first (act writer).2) : Sees txn state first (model.withTxn other act).2 := by
    rw [Model.withTxn]
    split
    · exact acts _
    · exact sees
  have write {other : TxnId} (different : other ≠ txn) (row : RowId) (value : Option Row) (writer : ModelTxn) :
      Sees txn state first (model.write other writer row value).2 := by
    rw [Model.write]
    split
    · exact sees.recordWrite different row value
    · exact sees
  have unended {other : TxnId} (different : other ≠ txn) {slot : Option ModelTxn} :
      (if txn = other then slot else model.txns txn) = some state := (if_neg different.symm).trans sees.isOpen
  cases op with
  | begin => exact ⟨unended (Nat.ne_of_gt sees.issued), Nat.lt_succ_of_lt sees.issued, sees.past, sees.grown, sees.view⟩
  | snapshot other => exact withTxn fun _ => ⟨unended foreign, sees.issued, sees.past, sees.grown, sees.view⟩
  | insert other row =>
    refine withTxn fun writer => ?_
    have written := @recordWrite _ _ _ _ writer _ sees foreign model.nextRow (some row)
    exact ⟨written.isOpen, written.issued, written.past, Nat.le_succ_of_le sees.grown, written.view⟩
  | update other row new => exact withTxn (write foreign row (some new))
  | delete other row => exact withTxn (write foreign row none)
  | get other row | scan other => exact withTxn fun _ => sees
  | commit other =>
    refine withTxn fun writer => ⟨unended foreign, sees.issued, Nat.le_succ_of_le sees.past, sees.grown, fun row => ?_⟩
    have later : ¬model.seq + 1 ≤ state.beginSeq := Nat.not_le_of_lt (Nat.lt_succ_of_le sees.past)
    rw [← sees.view row]
    cases writes : writer.writes row <;> simp [Model.view, Model.commit, writes, committedAt, later]
  | abort other =>
    refine withTxn fun writer => ⟨unended foreign, sees.issued, sees.past, sees.grown, fun row => ?_⟩
    rw [← sees.view row]
    cases writes : writer.writes row <;> simp [Model.view, Model.abort, writes, committedAt]

private theorem visibleRows_eq (sees : Sees txn state first model)
    (unborn : ∀ row, first.nextRow ≤ row → (first.view state row).join = none) :
    model.visibleRows state = first.visibleRows state := by
  obtain ⟨more, isMore⟩ := Nat.exists_eq_add_of_le sees.grown
  simp only [visibleRows, sees.view, isMore, List.range_add, List.filterMap_append, List.append_right_eq_self]
  simp [unborn]

end Model.Sees

/-- The engine after calls on a new table. -/
def Engine.after (hasher : Hasher) (capacity : Nat) (table : TableId) (ops : List RowOp) : Engine :=
  ((Engine.withTable hasher capacity table).run hasher (ops.map (onTable table))).2

/-- Reads repeat, and there are no phantoms: whatever others did since, committed or not, an
open transaction reads each row and the table as before. -/
theorem reads_repeat {hasher : Hasher} {capacity : Nat} {before since : List RowOp} {txn : TxnId}
    (belowCeiling : ∀ txn, .commit txn ∈ before ++ since → txn < maxTxnId)
    (isOpen : (Engine.after hasher capacity table before).isActive txn = true) (foreign : ∀ op ∈ since, op.Foreign txn) :
    (∀ row, ofRow ((Engine.after hasher capacity table (before ++ since)).get txn table row) =
        ofRow ((Engine.after hasher capacity table before).get txn table row)) ∧
      ofRows ((Engine.after hasher capacity table (before ++ since)).scan txn table) =
        ofRows ((Engine.after hasher capacity table before).scan txn table) := by
  obtain ⟨-, order, rel⟩ := (simulates_withTable hasher capacity table).run hasher
    fun txn member => belowCeiling txn (List.mem_append_left _ member)
  obtain ⟨-, order', rel'⟩ := (simulates_withTable hasher capacity table).run hasher belowCeiling
  obtain ⟨opened, inEngine⟩ := Option.isSome_iff_exists.mp isOpen
  obtain ⟨state, inModel⟩ := Option.isSome_iff_exists.mp ((rel.opened txn).symm.trans isOpen)
  obtain ⟨-, -, issued, past⟩ := rel.ordered.unresolved txn state inModel
  have sees : Model.Sees txn state (Model.initial.run before).2 (Model.initial.run (before ++ since)).2 := by
    change Model.Sees txn state _ (Machine.run Model.step Model.initial (before ++ since)).2
    rw [Machine.run_append]
    exact Machine.run_invariant (fun _ _ sees foreign => sees.step foreign) ⟨inModel, issued, past, le_rfl, fun _ => rfl⟩
      (Machine.meets_of_forall (fun op member _ => foreign op member) _)
  obtain ⟨opened', inEngine'⟩ := Option.isSome_iff_exists.mp ((rel'.opened txn).trans (congrArg _ sees.isOpen))
  refine ⟨fun row => (rel'.get_eq inEngine' sees.isOpen row).trans ?_, (rel'.scan_eq inEngine' sees.isOpen).trans ?_⟩
  · rw [sees.view row]
    exact (rel.get_eq inEngine inModel row).symm
  · refine (congrArg _ (sees.visibleRows_eq fun row new => ?_)).trans (rel.scan_eq inEngine inModel).symm
    rw [← rel.view_eq inModel (rel.txns txn opened state inEngine inModel), Engine.loadChain, (rel.fresh row new).1]
    rfl

theorem committed_insert_is_no_phantom :
    ofRows ((Engine.after (fun _ => 0) 16 1 ([.begin, .begin] ++ [.insert 3 ⟨[.int8 7]⟩, .commit 3])).scan 2 1) =
      ofRows ((Engine.after (fun _ => 0) 16 1 [.begin, .begin]).scan 2 1) := by
  refine (reads_repeat (fun txn member => ?_) rfl (by simp [Foreign])).2
  obtain rfl : txn = 3 := by simpa using member
  decide

/-! ## The ceiling of the commit log -/

/-- Beginning transactions only adds to the open ones. -/
theorem Model.run_begins_open (model : Model) (count : Nat) {txn : TxnId} (opens : (model.txns txn).isSome = true ∨
      (model.nextTxn ≤ txn ∧ txn < model.nextTxn + count)) :
    ((model.run (List.replicate count .begin)).2.txns txn).isSome = true := by
  induction count generalizing model with
  | zero =>
    rcases opens with before | ⟨above, below⟩
    · exact before
    · exact absurd above (not_le.mpr below)
  | succ count ih =>
    refine ih model.begin.2 ?_
    by_cases first : txn = model.nextTxn
    · exact Or.inl (by simp [Model.begin, first])
    · rcases opens with before | ⟨above, below⟩
      · exact Or.inl (by simpa [Model.begin, first] using before)
      · refine Or.inr ⟨lt_of_le_of_ne above (Ne.symm first), ?_⟩
        rw [show model.begin.2.nextTxn + count = model.nextTxn + (count + 1) by
          simp only [Model.begin]
          exact Nat.add_right_comm ..]
        exact below

/-- A commit at the ceiling is refused, with the transaction open. -/
theorem Engine.commit_at_ceiling {engine : Engine} {opened : TxnState} (hasher : Hasher)
    (inEngine : engine.active.lookup maxTxnId = some opened) :
    (engine.step hasher (.commit maxTxnId none)).1 ≠ .done := by
  have full : clogDirectoryCapacity < (engine.clog.markCommitted maxTxnId).segments :=
    lt_of_lt_of_le (by decide) (le_max_right _ _)
  simp [Engine.step, Engine.commitWith, Engine.finishCommit, inEngine, full, ofUnit]

/-- Once the transaction at the ceiling is open, its commit tells the two apart. -/
theorem differs_at_ceiling {count : Nat} (reaches : maxTxnId < 2 + count) (hasher : Hasher)
    (filterCapacity : Nat) (table : TableId) : ((Engine.withTable hasher filterCapacity table).run hasher
        ((List.replicate count begin ++ [commit maxTxnId]).map (onTable table))).1 ≠
      (Model.initial.run (List.replicate count begin ++ [commit maxTxnId])).1 := by
  have noCommit : ∀ txn, commit txn ∈ List.replicate count begin → txn < maxTxnId := by
    intro txn member
    exact absurd (List.eq_of_mem_replicate member) (by simp)
  obtain ⟨-, order, related⟩ := (simulates_withTable hasher filterCapacity table).run hasher noCommit
  have isOpen := Model.run_begins_open Model.initial count (Or.inr ⟨by decide, reaches⟩)
  rcases related.open_iff maxTxnId with ⟨-, closed⟩ | ⟨opened, state, inEngine, inModel, -⟩
  · simp [closed] at isOpen
  · intro same
    have lastSame := congrArg List.getLast? same
    rw [List.map_append, Engine.run, Model.run, Machine.run_append, Machine.run_append] at lastSame
    simp only [List.map_cons, List.map_nil, Machine.run_cons, Machine.run_nil,
      List.getLast?_append, List.getLast?_singleton, Option.some_or, Option.some.injEq] at lastSame
    refine Engine.commit_at_ceiling hasher inEngine (lastSame.trans ?_)
    change ((Model.initial.run _).2.step (.commit maxTxnId)).1 = .done
    simp [Model.step, Model.withTxn, inModel]

/-- The run that begins transactions up to the ceiling and commits the last one:
the engine refuses the commit, the reference model knows no such limit. -/
theorem beyond_ceiling_differs : ((Engine.withTable (fun _ => 0) 16 1).run (fun _ => 0)
        ((List.replicate (maxTxnId - 1) begin ++ [commit maxTxnId]).map (onTable 1))).1 ≠
      (Model.initial.run (List.replicate (maxTxnId - 1) begin ++ [commit maxTxnId])).1 :=
  differs_at_ceiling (by decide) (fun _ => 0) 16 1

end Ferrite.Storage
