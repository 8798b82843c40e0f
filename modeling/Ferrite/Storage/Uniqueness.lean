import Ferrite.Storage.ReferenceModel
import Ferrite.Storage.RowWrites
import Ferrite.Storage.UniqueCheck

/-!
# Uniqueness

A table written only through the checked calls, with one list of constraints. The
check looks at one version of each chain and trusts its filters; in every run where
that version is the only one that may still turn out live and carry the key, no two
live rows share a key, however the open transactions end.
-/

namespace Ferrite.Storage

open Logical

/-- The engine call for a row operation on a table with unique constraints. -/
def RowOp.checked (table : TableId) (unique : List UniqueKey) : RowOp → Op
  | .insert txn row => .insertUnique txn table row unique
  | .update txn row new => .updateUnique txn table row new unique
  | op => op.onTable table

namespace Engine

variable {engine : Engine} {hasher : Hasher} {txn : TxnId} {table : TableId}
  {unique : List UniqueKey}

/-- Who has committed once every open transaction ended as `choice` says. -/
def resolvedBy (engine : Engine) (choice : TxnId → Bool) (xid : TxnId) : Bool :=
  engine.isCommitted xid || (engine.isActive xid && choice xid)

/-- A row is live with this value: its creator committed and no deleter did. -/
def LiveUnder (engine : Engine) (choice : TxnId → Bool) (header : HeaderId) (row : RowId)
    (value : Row) : Prop :=
  Holds (engine.resolvedBy choice) (engine.resolvedBy choice) (engine.loadChain header row) value

/-- No two live rows carry equal keys, under any outcome of the open transactions. -/
def KeysUnique (engine : Engine) (header : HeaderId) (unique : List UniqueKey) : Prop :=
  ∀ choice, ∀ constraint ∈ unique, ∀ rowA rowB valueA valueB keyA keyB, rowA ≠ rowB →
    engine.LiveUnder choice header rowA valueA → engine.LiveUnder choice header rowB valueB →
      constraint.extract valueA = some keyA → constraint.extract valueB = some keyB → keyEq keyA keyB = false

/-- If `txn` commits, every value of another row that may turn out live and carries a
key of `row` is the one the walk reckons with. -/
def WalkSees (engine : Engine) (txn : TxnId) (header : HeaderId) (row : Row)
    (exclude : Option RowId) (unique : List UniqueKey) : Prop :=
  ∀ constraint ∈ unique, ∀ wanted, constraint.extract row = some wanted → ∀ rowId value key, some rowId ≠ exclude →
      Holds (fun xid => !engine.isAborted xid) (fun xid => engine.finalDeleter xid || decide (xid = txn))
          (engine.loadChain header rowId) value →
        constraint.extract value = some key → keyEq key wanted = true →
          engine.constraintVersion txn (engine.loadChain header rowId) = some value

/-- What a step needs: a checked write finds the walk and the filter builds seeing
enough. The table has header 1. -/
def StepSees (table : TableId) (unique : List UniqueKey) (engine : Engine) : RowOp → Prop
  | .insert txn row => CheckReady engine engine.filters txn table 1 row unique ∧ WalkSees engine txn 1 row none unique
  | .update txn rowId new =>
    CheckReady engine engine.filters txn table 1 new unique ∧ WalkSees engine txn 1 new (some rowId) unique
  | _ => True

/-- The invariant of such runs. -/
structure UniqueInv (hasher : Hasher) (table : TableId) (unique : List UniqueKey)
    (engine : Engine) : Prop where
  txns : TxnsOk engine
  nothingDropped : ∀ txn state, engine.active.lookup txn = some state → state.dropped = []
  issued : ∀ xid, engine.isCommitted xid = true → xid ≠ noTxn ∧ xid < engine.nextTxnId
  catalog : engine.catalog.find? table = some [Version.live 1 1]
  below : ∀ row xid, Mentions (engine.loadChain 1 row) xid → xid < engine.nextTxnId
  covers : Covers hasher engine table 1 engine.filters
  built : ∀ columns, engine.filters.isBuilt table columns = true → columns ∈ unique.map UniqueKey.columns
  keys : KeysUnique engine 1 unique

/-! ## Outcomes -/

variable {choice : TxnId → Bool} {xid : TxnId} {before after : Engine}

private theorem not_aborted_of_resolvedBy (resolved : engine.resolvedBy choice xid = true) :
    engine.isAborted xid = false := by
  cases aborted : engine.isAborted xid with
  | false => rfl
  | true =>
    obtain ⟨-, closed, clear⟩ := (isAborted_iff engine xid).mp aborted
    simp [resolvedBy, closed, clear] at resolved

private theorem not_final_of_resolvedBy (unresolved : engine.resolvedBy choice xid = false) :
    engine.finalDeleter xid = false := by
  cases final : engine.finalDeleter xid with
  | false => rfl
  | true =>
    obtain ⟨-, -, set⟩ := (finalDeleter_iff engine xid).mp final
    simp [resolvedBy, set] at unresolved

/-- An outcome after a step is an outcome before it, for every id handed out. -/
theorem TxnStep.resolvedBy_eq {op : Op} (effect : TxnStep op before after) (choice : TxnId → Bool)
    (issued : xid < before.nextTxnId) :
    before.resolvedBy (after.resolvedBy choice) xid = after.resolvedBy choice xid := by
  rw [resolvedBy]
  cases set : before.isCommitted xid with
  | true => simp [resolvedBy, effect.keeps xid set]
  | false =>
    cases running : before.isActive xid with
    | true => simp
    | false =>
      have clear : after.isCommitted xid = false := by
        cases committed : after.isCommitted xid with
        | false => rfl
        | true =>
          rcases effect.committed xid committed with earlier | ⟨active, -⟩
          · simp [set] at earlier
          · simp [running] at active
      simp [resolvedBy, clear, effect.isActive_of_issued issued running]

private theorem KeysUnique.of_txnStep {op : Op} (keys : KeysUnique before 1 unique) (effect : TxnStep op before after)
    (sameChains : ∀ row, after.loadChain 1 row = before.loadChain 1 row)
    (below : ∀ row xid, Mentions (before.loadChain 1 row) xid → xid < before.nextTxnId) :
    KeysUnique after 1 unique := by
  have back : ∀ {choice row value}, after.LiveUnder choice 1 row value →
      before.LiveUnder (after.resolvedBy choice) 1 row value := by
    intro choice row value live
    unfold LiveUnder at live ⊢
    rw [sameChains] at live
    refine Holds.mono live (fun version member created => ?_) (fun version member kept => ?_)
    · rwa [effect.resolvedBy_eq choice (below row _ ⟨version, member, Or.inl rfl⟩)]
    · rwa [effect.resolvedBy_eq choice (below row _ ⟨version, member, Or.inr rfl⟩)]
  intro choice constraint member rowA rowB valueA valueB keyA keyB different liveA liveB
  exact keys (after.resolvedBy choice) constraint member rowA rowB valueA valueB keyA keyB different
    (back liveA) (back liveB)

/-- A row write keeps keys unique if the new value clashes with no other live row
under any outcome in which its writer commits. -/
theorem KeysUnique.of_rowWrite {row : RowId} {new : Option Row} (keys : KeysUnique before 1 unique)
    (write : RowWrite before after 1 row txn new) (noneOpen : ∀ choice, before.resolvedBy choice noTxn = false)
    (fresh : ∀ value, new = some value → ∀ choice, before.resolvedBy choice txn = true →
      ∀ constraint ∈ unique, ∀ wanted, constraint.extract value = some wanted →
        ∀ other otherValue key, other ≠ row → before.LiveUnder choice 1 other otherValue →
          constraint.extract otherValue = some key → keyEq key wanted = false) : KeysUnique after 1 unique := by
  obtain ⟨-, sameClog, sameActive⟩ := bookkeeping_eq_iff.mp write.bookkeeping
  have sameResolved : after.resolvedBy = before.resolvedBy := by
    funext choice xid
    rw [resolvedBy, resolvedBy, isCommitted, isActive, sameClog, sameActive]
    rfl
  have origin : ∀ {choice probe value}, after.LiveUnder choice 1 probe value → before.LiveUnder choice 1 probe value ∨
        (probe = row ∧ new = some value ∧ before.resolvedBy choice txn = true) := by
    intro choice probe value live
    unfold LiveUnder at live ⊢
    rw [sameResolved] at live
    by_cases here : probe = row
    · subst here
      have abortedMild : ∀ xid, before.isAborted xid = true → before.resolvedBy choice xid = false := by
        intro xid aborted
        cases resolved : before.resolvedBy choice xid with
        | false => rfl
        | true => simp [not_aborted_of_resolvedBy resolved] at aborted
      rcases write.adds _ _ (noneOpen choice) abortedMild value live with ⟨isNew, counts⟩ | old
      · exact Or.inr ⟨rfl, isNew, counts⟩
      · exact Or.inl old
    · rw [write.elsewhere 1 probe fun both => here both.2] at live
      exact Or.inl live
  intro choice constraint member rowA rowB valueA valueB keyA keyB different liveA liveB carriesA carriesB
  rcases origin liveA with oldA | ⟨rfl, isNewA, counts⟩
  · rcases origin liveB with oldB | ⟨rfl, isNewB, counts⟩
    · exact keys choice constraint member rowA rowB valueA valueB keyA keyB different oldA oldB carriesA carriesB
    · exact fresh valueB isNewB choice counts constraint member keyB carriesB rowA valueA keyA different oldA carriesA
  · rcases origin liveB with oldB | ⟨rfl, -⟩
    · rw [keyEq_comm]
      exact fresh valueA isNewA choice counts constraint member keyA carriesA rowB valueB keyB
        (Ne.symm different) oldB carriesB
    · exact absurd rfl different

/-- A write the walk accepts clashes with no other live row, if the walk sees enough. -/
theorem fresh_of_walk {row : Row} {exclude : Option RowId} (sees : WalkSees engine txn 1 row exclude unique)
    (passed : engine.enforceByWalk txn 1 row exclude unique = .ok ()) (commits : engine.resolvedBy choice txn = true)
    {constraint : UniqueKey} (member : constraint ∈ unique) {wanted : List Value}
    (carries : constraint.extract row = some wanted) {other : RowId} {value : Row} {key : List Value}
    (notExcluded : some other ≠ exclude) (live : engine.LiveUnder choice 1 other value)
    (otherCarries : constraint.extract value = some key) : keyEq key wanted = false := by
  cases equal : keyEq key wanted with
  | false => rfl
  | true =>
    have mayHold : Holds (fun xid => !engine.isAborted xid)
        (fun xid => engine.finalDeleter xid || decide (xid = txn)) (engine.loadChain 1 other)
        value := by
      refine Holds.mono live (fun version _ created => ?_) (fun version _ kept => ?_)
      · simp [not_aborted_of_resolvedBy created]
      · have notTxn : version.xmax ≠ txn := by
          rintro own
          simp [own, commits] at kept
        simp [not_final_of_resolvedBy kept, notTxn]
    have found := sees constraint member wanted carries other value key notExcluded mayHold otherCarries equal
    have clash := walkClashes_iff.mpr ⟨other, value, key, notExcluded, found, otherCarries, equal⟩
    simp [enforceByWalk_ok_iff.mp passed constraint member wanted carries] at clash

/-! ## The invariant, step by step -/

namespace UniqueInv

variable {after : Engine} (inv : UniqueInv hasher table unique engine)

include inv

private theorem none_unresolved (choice : TxnId → Bool) : engine.resolvedBy choice noTxn = false := by
  have clear : engine.isCommitted noTxn = false := by
    cases set : engine.isCommitted noTxn with
    | false => rfl
    | true => exact absurd rfl (inv.issued noTxn set).1
  have closed : engine.isActive noTxn = false := by
    cases opened : engine.active.lookup noTxn with
    | none => simp [isActive, opened]
    | some state => exact absurd rfl (inv.txns.issued noTxn state opened).1
  simp [resolvedBy, clear, closed]

/-- Steps that touch the transactions only. -/
theorem of_txnStep {op : Op} (effect : TxnStep op engine after) (txns : TxnsOk after)
    (sameTables : after.tables = engine.tables) (sameCatalog : after.catalog = engine.catalog)
    (sameFilters : after.filters = engine.filters)
    (nothingDropped : ∀ txn state, after.active.lookup txn = some state → state.dropped = []) :
    UniqueInv hasher table unique after := by
  have sameChains : ∀ row, after.loadChain 1 row = engine.loadChain 1 row := by
    intro row
    rw [loadChain, loadChain, rowsOf, rowsOf, sameTables]
  refine ⟨txns, nothingDropped, ?_, sameCatalog ▸ inv.catalog, ?_, ?_, sameFilters ▸ inv.built,
    inv.keys.of_txnStep effect sameChains inv.below⟩
  · intro xid committed
    rcases effect.committed xid committed with before | ⟨running, -⟩
    · exact ⟨(inv.issued xid before).1, lt_of_lt_of_le (inv.issued xid before).2 effect.grows⟩
    · obtain ⟨state, opened⟩ := Option.isSome_iff_exists.mp running
      obtain ⟨real, below, -⟩ := inv.txns.issued xid state opened
      exact ⟨real, lt_of_lt_of_le below effect.grows⟩
  · intro row xid mentioned
    rw [sameChains] at mentioned
    exact lt_of_lt_of_le (inv.below row xid mentioned) effect.grows
  · intro columns rowId value key mayHold extracted
    rw [sameChains] at mayHold
    rw [sameFilters]
    refine inv.covers columns rowId value key (effect.mayHold_anti ?_ mayHold) extracted
    exact fun version member => ⟨inv.below rowId _ ⟨version, member, Or.inl rfl⟩,
      inv.below rowId _ ⟨version, member, Or.inr rfl⟩⟩

private theorem of_filters {filters : KeyFilters} (covers : Covers hasher engine table 1 filters)
    (built : ∀ columns, filters.isBuilt table columns = true → columns ∈ unique.map UniqueKey.columns) :
    UniqueInv hasher table unique { engine with filters := filters } :=
  ⟨⟨inv.txns.started, inv.txns.issued⟩, inv.nothingDropped, inv.issued, inv.catalog, inv.below,
    covers, built, inv.keys⟩

/-- A row write that clashes with nothing and whose keys the filters know. -/
theorem of_rowWrite {row : RowId} {new : Option Row} (write : RowWrite engine after 1 row txn new)
    (running : engine.isActive txn = true)
    (fresh : ∀ value, new = some value → ∀ choice, engine.resolvedBy choice txn = true →
      ∀ constraint ∈ unique, ∀ wanted, constraint.extract value = some wanted →
        ∀ other otherValue key, other ≠ row → engine.LiveUnder choice 1 other otherValue →
          constraint.extract otherValue = some key → keyEq key wanted = false)
    (noted : ∀ value, new = some value → ∀ columns key, extractColumns value columns = some key →
      engine.filters.mayContain table columns (hashKey hasher key) = true) :
    UniqueInv hasher table unique after := by
  obtain ⟨sameNext, sameClog, sameActive⟩ := bookkeeping_eq_iff.mp write.bookkeeping
  refine ⟨write.txns inv.txns, sameActive ▸ inv.nothingDropped, ?_, write.catalog ▸ inv.catalog,
    fun probe xid mentioned => write.below inv.txns running (inv.below probe) mentioned, ?_,
    write.filters ▸ inv.built, inv.keys.of_rowWrite write inv.none_unresolved fresh⟩
  · intro xid committed
    rw [isCommitted, sameClog] at committed
    rw [sameNext]
    exact inv.issued xid committed
  · intro columns rowId value key mayHold extracted
    rw [write.filters]
    rcases write.mayHold mayHold with ⟨-, isNew⟩ | before
    · exact noted value isNew columns key extracted
    · exact inv.covers columns rowId value key before extracted

/-- The check of an accepted or refused write, on this invariant. -/
theorem checked {row : Row} (exclude : Option RowId) (ready : CheckReady engine engine.filters txn table 1 row unique) :
    UniqueInv hasher table unique (engine.checkUnique hasher txn table 1 row exclude unique).2 ∧
      (engine.checkUnique hasher txn table 1 row exclude unique).1 = engine.enforceByWalk txn 1 row exclude unique ∧
      (engine.enforceByWalk txn 1 row exclude unique = .ok () → ∀ columns key, extractColumns row columns = some key →
          (engine.checkUnique hasher txn table 1 row exclude unique).2.filters.mayContain table
            columns (hashKey hasher key) = true) := by
  obtain ⟨filters, result, covers, -, isBuilt, noted⟩ := checkUnique_spec exclude inv.covers ready
  rw [result]
  refine ⟨inv.of_filters covers ?_, rfl, fun passed => noted passed fun _ columns built =>
    Or.inl (inv.built columns built)⟩
  intro columns built
  rw [isBuilt] at built
  split at built
  · simp at built
  · rcases Bool.or_eq_true_iff.mp built with before | now
    · exact inv.built columns before
    · exact checkedColumns_subset (by simpa using now)

/-- An accepted write of a row that passed the check. -/
theorem of_accepted {row : Row} {exclude : Option RowId} {target : RowId}
    (ready : CheckReady engine engine.filters txn table 1 row unique)
    (sees : WalkSees engine txn 1 row exclude unique) (running : engine.isActive txn = true)
    (notTarget : ∀ other, other ≠ target → some other ≠ exclude)
    (passed : (engine.checkUnique hasher txn table 1 row exclude unique).1 = .ok ())
    (write : RowWrite (engine.checkUnique hasher txn table 1 row exclude unique).2 after 1 target
      txn (some row)) : UniqueInv hasher table unique after := by
  obtain ⟨invChecked, answer, noted⟩ := inv.checked exclude ready
  obtain ⟨filters, isChecked⟩ := checkUnique_eq hasher engine txn table 1 row exclude unique
  rw [answer] at passed
  rw [isChecked] at invChecked write noted
  refine invChecked.of_rowWrite write running ?_ ?_
  · rintro value isNew choice commits constraint member wanted carries other otherValue key different
      live otherCarries
    obtain rfl := Option.some.inj isNew
    exact fresh_of_walk sees passed commits member carries (notTarget other different) live otherCarries
  · rintro value isNew
    obtain rfl := Option.some.inj isNew
    exact noted passed

private theorem insert {row : Row} (sees : StepSees table unique engine (.insert txn row)) :
    UniqueInv hasher table unique (engine.insertUnique hasher txn table row unique).2 := by
  obtain ⟨ready, walkSees⟩ := sees
  rcases insertUnique_cases hasher engine txn table row unique with
    ⟨error, refused⟩ | ⟨snap, header, stored, pinned, named, -, outcome⟩
  · rw [refused]
    exact inv
  · obtain ⟨rfl, -⟩ := tableRef_singleton inv.catalog named
    rcases outcome with ⟨error, -, refused⟩ | ⟨passed, -, write⟩
    · rw [refused]
      exact (inv.checked none ready).1
    · exact inv.of_accepted ready walkSees (isActive_of_snapshotOf pinned) (by simp) passed write

private theorem update {rowId : RowId} {new : Row} (sees : StepSees table unique engine (.update txn rowId new)) :
    UniqueInv hasher table unique (engine.updateUnique hasher txn table rowId new unique).2 := by
  obtain ⟨ready, walkSees⟩ := sees
  rcases updateUnique_cases hasher engine txn table rowId new unique with
    ⟨error, refused⟩ | ⟨snap, header, stored, pinned, named, -, outcome⟩
  · rw [refused]
    exact inv
  · obtain ⟨rfl, -⟩ := tableRef_singleton inv.catalog named
    rcases outcome with ⟨error, refused⟩ | ⟨passed, -, write⟩
    · rw [refused]
      exact (inv.checked (some rowId) ready).1
    · exact inv.of_accepted ready walkSees (isActive_of_snapshotOf pinned)
        (fun other different same => different (Option.some.inj same)) passed write

private theorem delete (rowId : RowId) : UniqueInv hasher table unique (engine.delete txn table rowId).2 := by
  rcases delete_cases engine txn table rowId with ⟨error, refused⟩ | ⟨snap, header, pinned, named, write⟩
  · rw [refused]
    exact inv
  · obtain ⟨rfl, -⟩ := tableRef_singleton inv.catalog named
    exact inv.of_rowWrite write (isActive_of_snapshotOf pinned) (by simp) (by simp)

private theorem nothingDropped_close (txn probe : TxnId) (state : TxnState)
    (opened : (engine.close txn).active.lookup probe = some state) : state.dropped = [] := by
  rw [lookup_close] at opened
  split at opened
  · simp at opened
  · exact inv.nothingDropped probe state opened

/-- Committing drops nothing here, so no table is touched. -/
theorem commit (txn : TxnId) : UniqueInv hasher table unique (commitWith none engine txn).2 := by
  have effect := commitWith_txnStep engine txn none
  have txns : TxnsOk (commitWith none engine txn).2 := inv.txns.step hasher (.commit txn none)
  cases opened : engine.active.lookup txn with
  | none =>
    have same : (commitWith none engine txn).2 = engine := by simp [commitWith, opened]
    rw [same]
    exact inv
  | some state =>
    have nothing := inv.nothingDropped txn state opened
    have result : (commitWith none engine txn).2 = { engine with clog := engine.clog.markCommitted txn } ∨
        (commitWith none engine txn).2 = { engine with clog := engine.clog.markCommitted txn }.close txn := by
      simp only [commitWith, opened, finishCommit, nothing]
      split <;> simp
    rcases result with same | closed
    · rw [same] at effect txns ⊢
      exact inv.of_txnStep effect txns rfl rfl rfl inv.nothingDropped
    · rw [closed] at effect txns ⊢
      exact inv.of_txnStep effect txns rfl rfl rfl (inv.nothingDropped_close txn)

private theorem step (op : RowOp) (sees : StepSees table unique engine op) :
    UniqueInv hasher table unique (engine.step hasher (op.checked table unique)).2 := by
  cases op with
  | begin =>
    refine inv.of_txnStep (step_txnStep hasher engine .begin) (inv.txns.step hasher .begin) rfl rfl
      rfl ?_
    intro txn state opened
    change engine.begin.2.active.lookup txn = some state at opened
    rw [lookup_begin] at opened
    cases before : engine.active.lookup txn with
    | some old =>
      rw [before, Option.some_or] at opened
      exact Option.some.inj opened ▸ inv.nothingDropped txn old before
    | none =>
      rw [before, Option.none_or] at opened
      split at opened
      · exact Option.some.inj opened ▸ rfl
      · simp at opened
  | snapshot txn =>
    have effect := step_txnStep hasher engine (.snapshot txn)
    have txns := inv.txns.step hasher (.snapshot txn)
    by_cases running : engine.isActive txn = true
    · have kept : (engine.snapshot txn).2.tables = engine.tables ∧ (engine.snapshot txn).2.catalog = engine.catalog ∧
          (engine.snapshot txn).2.filters = engine.filters := by
        simp [snapshot, running]
      refine inv.of_txnStep effect txns kept.1 kept.2.1 kept.2.2 ?_
      intro probe state opened
      change (engine.snapshot txn).2.active.lookup probe = some state at opened
      rw [lookup_snapshot running] at opened
      split at opened
      · obtain ⟨old, found, rfl⟩ := Option.map_eq_some_iff.mp opened
        exact inv.nothingDropped probe old found
      · exact inv.nothingDropped probe state opened
    · have same : (engine.step hasher (.snapshot txn)).2 = engine := by
        simp [Engine.step, snapshot, running]
      change UniqueInv hasher table unique (engine.step hasher (.snapshot txn)).2
      rw [same]
      exact inv
  | insert txn row => exact inv.insert sees
  | update txn row new => exact inv.update sees
  | delete txn row => exact inv.delete row
  | get txn row => exact inv
  | scan txn => exact inv
  | commit txn => exact inv.commit txn
  | abort txn =>
    have effect := step_txnStep hasher engine (.abort txn)
    have txns := inv.txns.step hasher (.abort txn)
    change UniqueInv hasher table unique (engine.step hasher (.abort txn)).2
    by_cases running : engine.isActive txn = true
    · have closed : (engine.step hasher (.abort txn)).2 = engine.close txn := by
        simp [Engine.step, Engine.abort, running]
      rw [closed] at effect txns ⊢
      exact inv.of_txnStep effect txns rfl rfl rfl (inv.nothingDropped_close txn)
    · have same : (engine.step hasher (.abort txn)).2 = engine := by
        simp [Engine.step, Engine.abort, running]
      rw [same]
      exact inv

end UniqueInv

private theorem uniqueInv_withTable (hasher : Hasher) (filterCapacity : Nat) (table : TableId)
    (unique : List UniqueKey) :
    UniqueInv hasher table unique (withTable hasher filterCapacity table) := by
  have noChain : ∀ row, (withTable hasher filterCapacity table).loadChain 1 row = [] := by
    intro row
    rw [withTable_eq]
    rfl
  refine ⟨?_, ?_, ?_, ?_, ?_, ?_, ?_, ?_⟩
  · rw [withTable_eq]
    exact ⟨Nat.two_pos, by simp⟩
  · rw [withTable_eq]
    simp
  · rw [withTable_eq]
    intro xid committed
    rw [isCommitted, Clog.isCommitted_markCommitted] at committed
    obtain rfl : xid = 1 := by simpa [Clog.empty, Clog.isCommitted] using committed
    exact ⟨Nat.one_ne_zero, Nat.one_lt_two⟩
  · rw [withTable_eq]
    simp
  · intro row xid mentioned
    rw [noChain] at mentioned
    obtain ⟨version, member, -⟩ := mentioned
    simp at member
  · intro columns row value key mayHold
    rw [noChain] at mayHold
    exact absurd mayHold not_holds_nil
  · rw [withTable_eq]
    intro columns built
    simp [KeyFilters.isBuilt, KeyFilters.new] at built
  · intro choice constraint _ rowA rowB valueA valueB keyA keyB _ live
    rw [LiveUnder, noChain] at live
    exact absurd live not_holds_nil

/-- In every run whose checked writes find the walk and the filter builds seeing
enough, no two live rows share a key, however the open transactions end. -/
theorem keys_unique_of_sees (hasher : Hasher) (filterCapacity : Nat) (table : TableId)
    (unique : List UniqueKey) (ops : List RowOp)
    (sees : Machine.Meets (fun engine op => engine.step hasher (RowOp.checked table unique op))
      (StepSees table unique) (withTable hasher filterCapacity table) ops) :
    KeysUnique ((withTable hasher filterCapacity table).run hasher
      (ops.map (RowOp.checked table unique))).2 1 unique := by
  have preserved : ∀ engine op, UniqueInv hasher table unique engine → StepSees table unique engine op →
        UniqueInv hasher table unique (engine.step hasher (RowOp.checked table unique op)).2 :=
    fun _ op inv stepSees => inv.step op stepSees
  rw [Engine.run, Machine.run_map]
  exact (Machine.run_invariant preserved (uniqueInv_withTable hasher filterCapacity table unique) sees).keys

/-- Where every row has at most one version and nobody deleted it, a check sees
everything, whoever is still running. -/
theorem sees_of_single {row : Row} {exclude : Option RowId} (single : ∀ rowId, engine.loadChain 1 rowId = [] ∨
      ∃ creator value, engine.loadChain 1 rowId = [Version.live creator value])
    (sameBits : ∀ constraint ∈ unique, ∀ wanted, constraint.extract row = some wanted →
      ∀ rowId value key, engine.MayHold (engine.loadChain 1 rowId) value →
        constraint.extract value = some key → keyEq key wanted = true → key = wanted) :
    CheckReady engine engine.filters txn table 1 row unique ∧ WalkSees engine txn 1 row exclude unique :=
  ⟨⟨fun _ _ _ _ rowId _ mayHold _ => constraintVersion_of_single (single rowId) mayHold, sameBits⟩,
    fun _ _ _ _ rowId _ _ _ mayHold _ _ => constraintVersion_of_single (single rowId) mayHold⟩

/-- The same key inserted twice by one transaction: the second insert is refused. -/
theorem keys_unique_second_insert_refused :
    Machine.Meets (fun engine op => engine.step (fun _ => 0) (RowOp.checked 1 [⟨"pk", [0]⟩] op))
        (StepSees 1 [⟨"pk", [0]⟩]) (withTable (fun _ => 0) 16 1)
        [.begin, .insert 2 ⟨[.int8 1]⟩, .insert 2 ⟨[.int8 1]⟩, .commit 2] ∧
      KeysUnique ((withTable (fun _ => 0) 16 1).run (fun _ => 0)
        ([RowOp.begin, .insert 2 ⟨[.int8 1]⟩, .insert 2 ⟨[.int8 1]⟩, .commit 2].map
          (RowOp.checked 1 [⟨"pk", [0]⟩]))).2 1 [⟨"pk", [0]⟩] := by
  have sees : Machine.Meets
      (fun engine op => engine.step (fun _ => 0) (RowOp.checked 1 [⟨"pk", [0]⟩] op))
      (StepSees 1 [⟨"pk", [0]⟩]) (withTable (fun _ => 0) 16 1)
      [.begin, .insert 2 ⟨[.int8 1]⟩, .insert 2 ⟨[.int8 1]⟩, .commit 2] := by
    have chains : ∀ rowId, ((withTable (fun _ => 0) 16 1).run (fun _ => 0)
        ([RowOp.begin, .insert 2 ⟨[.int8 1]⟩].map (RowOp.checked 1 [⟨"pk", [0]⟩]))).2.loadChain 1
          rowId = if rowId = 1 then [Version.live 2 ⟨[.int8 1]⟩] else [] := by
      intro rowId
      have rows : ((withTable (fun _ => 0) 16 1).run (fun _ => 0)
          ([RowOp.begin, .insert 2 ⟨[.int8 1]⟩].map (RowOp.checked 1 [⟨"pk", [0]⟩]))).2.rowsOf 1 =
            OrderedMap.empty.insert 1 [Version.live 2 ⟨[.int8 1]⟩] := rfl
      rw [loadChain, rows, OrderedMap.find?_insert]
      split <;> rfl
    refine ⟨trivial, sees_of_single ?_ ?_, sees_of_single (fun rowId => ?_) ?_, trivial, trivial⟩
    · exact fun rowId => Or.inl rfl
    · exact fun _ _ _ _ rowId value key mayHold => absurd mayHold not_holds_nil
    · refine (em (rowId = 1)).symm.imp (fun other => ?_) fun first => ⟨2, ⟨[.int8 1]⟩, ?_⟩
      · exact (chains rowId).trans (if_neg other)
      · exact (chains rowId).trans (if_pos first)
    · intro constraint member wanted carries rowId value key mayHold extracted _
      obtain rfl := List.mem_singleton.mp member
      have onlyValue : value = ⟨[.int8 1]⟩ := by
        change MayHold _ (((withTable (fun _ => 0) 16 1).run (fun _ => 0)
          ([RowOp.begin, .insert 2 ⟨[.int8 1]⟩].map (RowOp.checked 1 [⟨"pk", [0]⟩]))).2.loadChain 1
            rowId) value at mayHold
        rw [chains] at mayHold
        split at mayHold
        · exact (Holds.of_live mayHold).1
        · exact absurd mayHold not_holds_nil
      rw [onlyValue] at extracted
      exact Option.some.inj (extracted.symm.trans carries)
  exact ⟨sees, keys_unique_of_sees (fun _ => 0) 16 1 _ _ sees⟩

/-- Transaction 3 moves row 1 off key 1, transaction 4 takes the key, 3 aborts: the
walk had seen only the uncommitted version of row 1. Both rows carry key 1. -/
theorem aborted_update_frees_key : ((withTable (fun _ => 0) 16 1).run (fun _ => 0)
      ([RowOp.begin, .insert 2 ⟨[.int8 1]⟩, .commit 2, .begin, .begin, .update 3 1 ⟨[.int8 2]⟩,
        .insert 4 ⟨[.int8 1]⟩, .abort 3, .commit 4, .begin, .scan 5].map
          (RowOp.checked 1 [⟨"pk", [0]⟩]))).1 =
      [.began 2, .inserted 1, .done, .began 3, .began 4, .done, .inserted 2, .done, .done,
        .began 5, .rows [(1, ⟨[.int8 1]⟩), (2, ⟨[.int8 1]⟩)]] := by
  decide +kernel

end Engine
end Ferrite.Storage
