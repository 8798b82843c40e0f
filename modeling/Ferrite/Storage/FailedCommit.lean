import Ferrite.Storage.SnapshotIsolation

/-!
# Rolling back after a failed commit

A commit that fails while its bit is still clear can be rolled back: nobody else
ever reads a trace of the transaction, and over one table the whole run answers as
if the commit had never been tried. A commit that fails later leaves the bit set,
and `abort` does not clear it.
-/

namespace Ferrite.Storage

open Logical

/-- A chain without the versions `txn` created and without its delete marks. -/
def withoutTxn {α : Type} (txn : TxnId) (chain : List (Version α)) : List (Version α) :=
  cleanBy (fun xid => decide (xid = txn)) chain

/-- No version of the chain was created or deleted by `txn`. -/
def Untouched {α : Type} (txn : TxnId) (chain : List (Version α)) : Prop :=
  ∀ version ∈ chain, version.xmin ≠ txn ∧ version.xmax ≠ txn

namespace Engine

variable {engine : Engine} {txn : TxnId} {α : Type}

/-- Whether a snapshot sees the version: its creator is visible, its deleter is not. -/
def seesVersion (engine : Engine) (snap : Snapshot) (version : Version α) : Bool :=
  engine.visibleTxn snap version.xmin &&
    (decide (version.xmax = noTxn) || !engine.visibleTxn snap version.xmax)

/-- A reader sees no version of `txn` in the chain, and reads the value it would
read had `txn` never written to it. -/
def HiddenIn (engine : Engine) (snap : Snapshot) (txn : TxnId) (chain : List (Version α)) : Prop :=
  (∀ version ∈ chain, version.xmin = txn → engine.seesVersion snap version = false) ∧
    engine.visibleVersion snap chain = engine.visibleVersion snap (withoutTxn txn chain)

/-- Nobody else sees a trace of `txn`, in any stored row or table entry. -/
def RolledBack (engine : Engine) (txn : TxnId) : Prop :=
  ∀ other state, engine.active.lookup other = some state → other ≠ txn →
    (∀ header row, engine.HiddenIn state.snapshot txn (engine.loadChain header row)) ∧
      ∀ table, engine.HiddenIn state.snapshot txn (engine.loadCatalog table)

/-- No stored row or table entry has a version or a mark of `txn`. -/
def Traceless (engine : Engine) (txn : TxnId) : Prop :=
  (∀ header row, Untouched txn (engine.loadChain header row)) ∧ ∀ table, Untouched txn (engine.loadCatalog table)

/-- `txn` is the creator of a row's newest version, and nobody has deleted it. -/
def Wrote (engine : Engine) (txn : TxnId) : Prop :=
  ∃ header row value older, engine.loadChain header row = Version.live txn value :: older

/-- Nothing of an id with a clear commit bit shows in any chain, to anybody else. -/
theorem rolledBack_of_uncommitted (ok : TxnsOk engine) (real : txn ≠ noTxn)
    (undecided : engine.isCommitted txn = false) : RolledBack engine txn := by
  intro other state opened different
  have unseen : engine.visibleTxn state.snapshot txn = false := by
    simp [visibleTxn, real, (ok.issued other state opened).2.2, Ne.symm different, undecided]
  have hidden {α : Type} (chain : List (Version α)) : engine.HiddenIn state.snapshot txn chain := by
    constructor
    · rintro version - rfl
      simp [seesVersion, unseen]
    · rw [withoutTxn, visibleVersion_eq_selectVersion, visibleVersion_eq_selectVersion,
        selectVersion_cleanBy ?_ (visibleTxn_noTxn engine _)]
      intro xid isTxn
      simp [of_decide_eq_true isTxn, unseen]
  exact ⟨fun _ _ => hidden _, fun _ => hidden _⟩

/-- Where `txn` left nothing, nothing of it shows, whatever its commit bit says. -/
theorem Traceless.rolledBack (traceless : engine.Traceless txn) : RolledBack engine txn := by
  have hidden {α : Type} {snap : Snapshot} {chain : List (Version α)} (untouched : Untouched txn chain) :
      engine.HiddenIn snap txn chain := by
    refine ⟨fun version member created => absurd created (untouched version member).1, ?_⟩
    rw [withoutTxn, cleanBy_eq_self fun version member => ?_]
    simpa using untouched version member
  exact fun _ _ _ _ => ⟨fun header row => hidden (traceless.1 header row),
    fun table => hidden (traceless.2 table)⟩

/-! ## From the failed commit to the abort, and after it -/

/-- An issued transaction whose commit bit is clear. -/
def Undecided (txn : TxnId) (engine : Engine) : Prop := txn < engine.nextTxnId ∧ engine.isCommitted txn = false

private theorem Undecided.of_txnStep {op : Op} {after : Engine} (undecided : Undecided txn engine)
    (effect : TxnStep op engine after) (notCommit : ∀ fault, op = .commit txn fault → engine.isActive txn = false) :
    Undecided txn after := by
  refine ⟨lt_of_lt_of_le undecided.1 effect.grows, ?_⟩
  cases committed : after.isCommitted txn with
  | false => rfl
  | true =>
    rcases effect.committed txn committed with before | ⟨running, fault, isCommit⟩
    · simp [undecided.2] at before
    · simp [notCommit fault isCommit] at running

private theorem Undecided.step (undecided : Undecided txn engine) (hasher : Hasher) {op : Op}
    (notCommit : ∀ fault, op = .commit txn fault → engine.isActive txn = false) :
    Undecided txn (engine.step hasher op).2 :=
  undecided.of_txnStep (step_txnStep hasher engine op) notCommit

/-- While nobody commits `txn`, its bit stays clear. -/
theorem Undecided.run (undecided : Undecided txn engine) (hasher : Hasher) {ops : List Op}
    (notCommit : ∀ fault, Op.commit txn fault ∉ ops) : Undecided txn (engine.run hasher ops).2 := by
  have preserved : ∀ state op, Undecided txn state → (∀ fault, op ≠ Op.commit txn fault) →
      Undecided txn (Engine.step hasher state op).2 := fun _ _ before other =>
    before.step hasher fun fault isCommit => absurd isCommit (other fault)
  refine Machine.run_invariant preserved undecided (Machine.meets_of_forall ?_ engine)
  rintro op member _ fault rfl
  exact notCommit fault member

/-- An issued transaction that is not running. -/
def Ended (txn : TxnId) (engine : Engine) : Prop := txn < engine.nextTxnId ∧ engine.isActive txn = false

/-- Ids are not handed out twice, so who has ended never runs again. -/
theorem Ended.step (ended : Ended txn engine) (hasher : Hasher) (op : Op) : Ended txn (engine.step hasher op).2 := by
  have effect := step_txnStep hasher engine op
  refine ⟨lt_of_lt_of_le ended.1 effect.grows, ?_⟩
  cases opened : (engine.step hasher op).2.active.lookup txn with
  | none => simp [isActive, opened]
  | some state =>
    rcases effect.opened txn state opened with ⟨new, -⟩ | ⟨old, before, -⟩
    · exact absurd new (Nat.ne_of_lt ended.1)
    · simp [Ended, isActive, before] at ended

/-- What has ended with its bit clear stays uncommitted, whatever is called later. -/
theorem Ended.run_uncommitted (ended : Ended txn engine) (clear : engine.isCommitted txn = false) (hasher : Hasher)
    (ops : List Op) : (engine.run hasher ops).2.isCommitted txn = false :=
  have preserved : ∀ state op, Ended txn state ∧ Undecided txn state →
      Ended txn (Engine.step hasher state op).2 ∧ Undecided txn (Engine.step hasher state op).2 :=
    fun _ op before => ⟨before.1.step hasher op, before.2.step hasher fun _ _ => before.1.2⟩
  (Machine.run_always preserved ⟨ended, ended.1, clear⟩ ops).2.2

/-- After its abort a transaction has ended; the abort touches no chain and no bit. -/
theorem abort_ends (issued : txn < engine.nextTxnId) (hasher : Hasher) :
    Ended txn (engine.step hasher (.abort txn)).2 ∧
      ∃ active, (engine.step hasher (.abort txn)).2 = { engine with active := active } := by
  by_cases running : engine.isActive txn = true
  · simp only [step, abort, running, if_true]
    refine ⟨⟨issued, ?_⟩, _, rfl⟩
    rw [isActive, lookup_close]
    simp
  · simp only [step, abort, running, Bool.false_eq_true, if_false]
    exact ⟨⟨issued, by simpa using running⟩, _, rfl⟩

private theorem run_append (hasher : Hasher) (engine : Engine) (first second : List Op) :
    (engine.run hasher (first ++ second)).2 = ((engine.run hasher first).2.run hasher second).2 := by
  simp [Engine.run, Machine.run_append]

/-- A commit that fails with its bit clear is rolled back by the abort. -/
theorem rolledBack_of_clear (ok : TxnsOk engine) (real : txn ≠ noTxn) (undecided : Undecided txn engine)
    (hasher : Hasher) {between : List Op} (after : List Op) (notCommit : ∀ fault, Op.commit txn fault ∉ between) :
    RolledBack (engine.run hasher (between ++ .abort txn :: after)).2 txn := by
  refine rolledBack_of_uncommitted (ok.run hasher _) real ?_
  rw [run_append]
  have still := undecided.run hasher notCommit
  exact (abort_ends still.1 hasher).1.run_uncommitted (still.step hasher (by simp)).2 hasher after

/-- A transaction that begins now sees everybody who committed and is not running. -/
theorem begin_sees (ok : TxnsOk engine) (real : txn ≠ noTxn) (issued : txn < engine.nextTxnId)
    (notRunning : engine.isActive txn = false) (set : engine.isCommitted txn = true) :
    ∃ state, engine.begin.2.active.lookup engine.nextTxnId = some state ∧
      engine.begin.2.visibleTxn state.snapshot txn = true := by
  have fresh : engine.active.lookup engine.nextTxnId = none := by
    cases opened : engine.active.lookup engine.nextTxnId with
    | none => rfl
    | some state => exact absurd (ok.issued _ state opened).2.1 (lt_irrefl _)
  refine ⟨⟨{ engine with nextTxnId := engine.nextTxnId + 1 }.takeSnapshot engine.nextTxnId, []⟩,
    by rw [lookup_begin, fresh, Option.none_or, if_pos rfl], ?_⟩
  have notListed : txn ∉
      ({ engine with nextTxnId := engine.nextTxnId + 1 }.takeSnapshot engine.nextTxnId).activeAtStart := by
    rw [mem_activeAtStart]
    rintro ⟨running, -⟩
    change engine.isActive txn = true at running
    simp [notRunning] at running
  exact visibleTxn_of_committed real (Nat.lt_succ_of_lt issued) notListed set

/-- A transaction that begins after the abort sees what a set commit bit shows it. -/
theorem not_rolledBack_of_set (ok : TxnsOk engine) (real : txn ≠ noTxn) (issued : txn < engine.nextTxnId)
    (set : engine.isCommitted txn = true) (wrote : Wrote engine txn) (hasher : Hasher) :
    ¬RolledBack (engine.run hasher [.abort txn, .begin]).2 txn := by
  intro rolledBack
  obtain ⟨ended, active, aborted⟩ := abort_ends issued hasher
  obtain ⟨state, opened, visible⟩ := begin_sees (ok.step hasher (.abort txn)) real ended.1 ended.2 (by rw [aborted]; exact set)
  obtain ⟨header, row, value, older, stored⟩ := wrote
  have same : (engine.run hasher [.abort txn, .begin]).2.loadChain header row = Version.live txn value :: older := by
    rw [← stored]
    change (engine.step hasher (.abort txn)).2.begin.2.loadChain header row = _
    rw [aborted]
    rfl
  have hidden := ((rolledBack _ state opened (Nat.ne_of_gt ended.1)).1 header row).1
  rw [same] at hidden
  have sees : (engine.run hasher [.abort txn, .begin]).2.visibleTxn state.snapshot txn = true := visible
  simpa [seesVersion, Version.live, sees] using hidden _ List.mem_cons_self rfl

/-- A failing commit leaves the bit clear exactly when it fails in `mark_committed`. -/
theorem commitWith_failed (running : engine.isActive txn = true)
    (clear : engine.isCommitted txn = false) (fault : Option CommitFault) :
    (commitWith fault engine txn).2.isCommitted txn = false ↔
      ∃ allocated reason, fault = some (.markCommitted allocated reason) := by
  obtain ⟨state, opened⟩ := Option.isSome_iff_exists.mp running
  unfold commitWith
  rw [opened]
  dsimp only
  split
  · refine iff_of_true ?_ ⟨_, _, rfl⟩
    rw [isCommitted, Clog.isCommitted_allocate]
    exact clear
  · rename_i notMark
    have otherwise : ¬∃ allocated reason, fault = some (.markCommitted allocated reason) := by
      rintro ⟨allocated, reason, isMark⟩
      exact notMark allocated reason isMark
    refine iff_of_false ?_ otherwise
    have set : (engine.clog.markCommitted txn).isCommitted txn = true := by simp
    rw [Bool.not_eq_false, isCommitted]
    rcases finishCommit_bookkeeping fault { engine with clog := engine.clog.markCommitted txn } txn
      state.dropped with same | same <;>
    · simp only [bookkeeping, Prod.mk.injEq] at same
      rw [same.2.1]
      exact set

end Engine

/-! ## Runs over one table with failing commits -/

/-- A row operation, or a commit that fails before its bit is set. -/
inductive FaultyOp where
  | call (op : RowOp)
  | failedCommit (txn : TxnId) (allocated : Nat) (error : FerriteError)

/-- The engine call it stands for. -/
def FaultyOp.onTable (table : TableId) : FaultyOp → Op
  | .call op => op.onTable table
  | .failedCommit txn allocated error => .commit txn (some (.markCommitted allocated error))

/-- The transaction whose commit the operation asks for. -/
def FaultyOp.commits : FaultyOp → Option TxnId
  | .call (.commit txn) => some txn
  | .failedCommit txn _ _ => some txn
  | .call _ => none

/-- In the reference model a failed commit reports its error and changes nothing. -/
def Model.faultyStep (model : Model) : FaultyOp → Outcome × Model
  | .call op => model.step op
  | .failedCommit txn _ error => model.withTxn txn fun _ => (.failed error, model)

/-- Answer a whole run with failing commits. -/
def Model.faultyRun (model : Model) (ops : List FaultyOp) : List Outcome × Model :=
  Machine.run Model.faultyStep model ops

private theorem Simulates.faultyStep {table : TableId} {engine : Engine} {model : Model}
    (rel : Simulates table engine model) (hasher : Hasher) (op : FaultyOp)
    (belowCeiling : ∀ txn, op.commits = some txn → txn < maxTxnId) :
    (engine.step hasher (op.onTable table)).1 = (model.faultyStep op).1 ∧
      Simulates table (engine.step hasher (op.onTable table)).2 (model.faultyStep op).2 := by
  cases op with
  | call op => exact rel.step hasher op fun txn isCommit => belowCeiling txn (by rw [isCommit]; rfl)
  | failedCommit txn allocated error =>
    obtain ⟨order, rel⟩ := rel
    rcases rel.open_iff txn with ⟨inEngine, inModel⟩ | ⟨opened, state, inEngine, inModel, -⟩
    · simp only [FaultyOp.onTable, Engine.step, Model.faultyStep, Model.withTxn, inModel, Engine.commitWith, inEngine]
      exact ⟨rfl, order, rel⟩
    · have segment : txn / txnsPerClogPage + 1 ≤ clogDirectoryCapacity := segment_le_capacity (belowCeiling txn rfl)
      simp only [FaultyOp.onTable, Engine.step, Model.faultyStep, Model.withTxn, inModel, Engine.commitWith, inEngine]
      refine ⟨rfl, order, rel.withClog ?_ ?_⟩
      · exact fun xid => Clog.isCommitted_allocate engine.clog txn xid allocated
      · exact max_le rel.directory (le_trans (min_le_right _ _) segment)

private theorem Simulates.faultyRun {table : TableId} {engine : Engine} {model : Model}
    (rel : Simulates table engine model)
    (hasher : Hasher) {ops : List FaultyOp} (belowCeiling : ∀ op ∈ ops, ∀ txn, op.commits = some txn → txn < maxTxnId) :
    (engine.run hasher (ops.map (FaultyOp.onTable table))).1 = (model.faultyRun ops).1 := by
  have simulates : ∀ engine model op, Simulates table engine model → (∀ txn, op.commits = some txn → txn < maxTxnId) →
        (engine.step hasher (op.onTable table)).1 = (model.faultyStep op).1 ∧
          Simulates table (engine.step hasher (op.onTable table)).2 (model.faultyStep op).2 :=
    fun _ _ op related below => related.faultyStep hasher op below
  exact (Machine.run_simulation simulates rel
    (Machine.meets_of_forall (fun op member _ => belowCeiling op member) engine)).1

/-! ## When a failed commit can be rolled back -/

end Ferrite.Storage
