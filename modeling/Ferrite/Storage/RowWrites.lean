import Ferrite.Storage.Holding

/-!
# What an accepted row write does

Insert, update and delete each replace one chain of one table. Seen through any
point of view on open transactions, the new chain holds at most the new value more
than the old one.
-/

namespace Ferrite.Storage.Engine

variable {engine : Engine} {hasher : Hasher} {txn : TxnId} {table : TableId} {header : HeaderId}
  {snap : Snapshot} {row : RowId} {new : Row} {unique : List UniqueKey}

/-- One chain was replaced by one that holds at most the new value more. -/
structure RowWrite (before after : Engine) (header : HeaderId) (row : RowId) (txn : TxnId)
    (new : Option Row) : Prop where
  bookkeeping : after.bookkeeping = before.bookkeeping
  catalog : after.catalog = before.catalog
  nextHeader : after.nextHeader = before.nextHeader
  filters : after.filters = before.filters
  stored : ∀ probe, (after.tables probe).isSome = (before.tables probe).isSome
  elsewhere : ∀ probe probeRow, ¬(probe = header ∧ probeRow = row) →
    after.loadChain probe probeRow = before.loadChain probe probeRow
  adds : ∀ creates deletes, deletes noTxn = false → (∀ xid, before.isAborted xid = true → deletes xid = false) →
    ∀ value, Holds creates deletes (after.loadChain header row) value → (new = some value ∧ creates txn = true) ∨
        Holds creates deletes (before.loadChain header row) value
  mentions : ∀ xid, Mentions (after.loadChain header row) xid →
    xid = noTxn ∨ xid = txn ∨ Mentions (before.loadChain header row) xid

variable {chain : List (Version Row)} {stored : Table}

theorem bookkeeping_eq_iff {before after : Engine} : after.bookkeeping = before.bookkeeping ↔
      after.nextTxnId = before.nextTxnId ∧ after.clog = before.clog ∧ after.active = before.active := by
  simp [bookkeeping]

namespace RowWrite

variable {before after : Engine} {new : Option Row} (write : RowWrite before after header row txn new)

include write

theorem txns (ok : TxnsOk before) : TxnsOk after := by
  obtain ⟨sameNext, -, sameActive⟩ := bookkeeping_eq_iff.mp write.bookkeeping
  refine ⟨sameNext ▸ ok.started, ?_⟩
  rw [sameActive, sameNext]
  exact ok.issued

/-- A value that may turn out live after the write is the new one or an old one. -/
theorem mayHold {probe : HeaderId} {probeRow : RowId} {value : Row}
    (holds : after.MayHold (after.loadChain probe probeRow) value) : (probe = header ∧ new = some value) ∨
      before.MayHold (before.loadChain probe probeRow) value := by
  obtain ⟨-, sameClog, sameActive⟩ := bookkeeping_eq_iff.mp write.bookkeeping
  have sameAborted : after.isAborted = before.isAborted := by
    funext xid
    rw [isAborted, isAborted, isActive, isActive, isCommitted, isCommitted, sameClog, sameActive]
  have sameFinal : after.finalDeleter = before.finalDeleter := by
    funext xid
    rw [finalDeleter, finalDeleter, sameAborted, isActive, isActive, sameActive]
  unfold MayHold at holds
  rw [sameAborted, sameFinal] at holds
  by_cases here : probe = header ∧ probeRow = row
  · obtain ⟨rfl, rfl⟩ := here
    rcases write.adds _ _ (finalDeleter_noTxn before) (fun _ => finalDeleter_aborted) value holds
      with ⟨isNew, -⟩ | old
    · exact Or.inl ⟨rfl, isNew⟩
    · exact Or.inr old
  · rw [write.elsewhere probe probeRow here] at holds
    exact Or.inr holds

/-- The ids a chain mentions stay below the next one to hand out. -/
theorem below (ok : TxnsOk before) (running : before.isActive txn = true) {probe : HeaderId} {probeRow : RowId}
    {xid : TxnId} (old : ∀ xid, Mentions (before.loadChain probe probeRow) xid → xid < before.nextTxnId)
    (mentioned : Mentions (after.loadChain probe probeRow) xid) : xid < after.nextTxnId := by
  rw [(bookkeeping_eq_iff.mp write.bookkeeping).1]
  by_cases here : probe = header ∧ probeRow = row
  · obtain ⟨rfl, rfl⟩ := here
    rcases write.mentions xid mentioned with rfl | rfl | earlier
    · exact ok.started
    · obtain ⟨state, opened⟩ := Option.isSome_iff_exists.mp running
      exact (ok.issued _ state opened).2.1
    · exact old xid earlier
  · rw [write.elsewhere probe probeRow here] at mentioned
    exact old xid mentioned

end RowWrite

/-! ## The pruned chain a write starts from -/

/-- Nothing in a pruned chain is deleted by an aborted transaction. -/
theorem deleter_alive_of_mem_prune {α : Type} {chain : List (Version α)} {version : Version α}
    (member : version ∈ engine.prune chain) : engine.isAborted version.xmax = false := by
  rw [prune, pruneBelow_eq] at member
  obtain ⟨stored, -, -, rfl⟩ := mem_cleanBy (List.mem_of_mem_filter member)
  cases aborted : engine.isAborted stored.xmax with
  | true => simp
  | false => simp [aborted]

private theorem mentions_of_prune {xid : TxnId} (mentioned : Mentions (engine.prune chain) xid) :
    xid = noTxn ∨ Mentions chain xid := by
  obtain ⟨version, member, which⟩ := mentioned
  rw [prune, pruneBelow_eq] at member
  obtain ⟨stored, inChain, -, rfl⟩ := mem_cleanBy (List.mem_of_mem_filter member)
  rcases which with creator | deleter
  · exact Or.inr ⟨stored, inChain, Or.inl creator⟩
  · cases aborted : engine.isAborted stored.xmax with
    | true => exact Or.inl (by simpa [aborted] using deleter.symm)
    | false => exact Or.inr ⟨stored, inChain, Or.inr (by simpa [aborted] using deleter)⟩

/-- The conflict check lets a write through only onto a version nobody deleted. -/
theorem newest_live_of_writable {α : Type} {chain : List (Version α)}
    (passed : engine.writableVersion snap (engine.prune chain) = .ok ()) :
    ∃ newest older, engine.prune chain = newest :: older ∧ newest.xmax = noTxn := by
  cases pruned : engine.prune chain with
  | nil => simp [pruned, writableVersion] at passed
  | cons newest older =>
    refine ⟨newest, older, rfl, ?_⟩
    have member : newest ∈ engine.prune chain := by simp [pruned]
    rw [pruned, writableVersion, deleter_alive_of_mem_prune member] at passed
    by_contra deleted
    rw [if_pos deleted, Bool.not_false, if_pos rfl] at passed
    split at passed
    · simp at passed
    · split at passed
      · simp at passed
      · split at passed <;> simp at passed

/-! ## Stores -/

private theorem stored_storeChain (found : engine.tables header = some stored) (nonempty : chain ≠ [])
    (probe : HeaderId) :
    ((engine.storeChain header row chain).tables probe).isSome = (engine.tables probe).isSome := by
  rw [storeChain_of_ne_nil found nonempty]
  by_cases here : probe = header <;> simp [here, found]

/-- Storing a chain that adds at most one value to the pruned one. -/
theorem rowWrite_storeChain {value : Option Row} (found : engine.tables header = some stored) (nonempty : chain ≠ [])
    (adds : ∀ creates deletes, deletes noTxn = false → ∀ held, Holds creates deletes chain held →
      (value = some held ∧ creates txn = true) ∨
        Holds creates deletes (engine.prune (engine.loadChain header row)) held)
    (mentions : ∀ xid, Mentions chain xid →
      xid = noTxn ∨ xid = txn ∨ Mentions (engine.prune (engine.loadChain header row)) xid) :
    RowWrite engine (engine.storeChain header row chain) header row txn value := by
  refine ⟨bookkeeping_storeChain .., ?_, ?_, ?_, stored_storeChain found nonempty, ?_, ?_, ?_⟩
  · rw [storeChain_of_ne_nil found nonempty]
  · rw [storeChain_of_ne_nil found nonempty]
  · rw [storeChain_of_ne_nil found nonempty]
  · intro probe probeRow other
    rw [loadChain_storeChain found nonempty, if_neg other]
  · intro creates deletes noneMild abortedMild held holds
    rw [loadChain_storeChain found nonempty, if_pos ⟨rfl, rfl⟩] at holds
    exact (adds creates deletes noneMild held holds).imp_right (Holds.of_prune abortedMild)
  · intro xid mentioned
    rw [loadChain_storeChain found nonempty, if_pos ⟨rfl, rfl⟩] at mentioned
    rcases mentions xid mentioned with none | own | before
    · exact Or.inl none
    · exact Or.inr (Or.inl own)
    · exact (mentions_of_prune before).imp_right Or.inr

private theorem rowWrite_update (found : engine.tables header = some stored)
    (passed : engine.writableVersion snap (engine.prune (engine.loadChain header row)) = .ok ()) : RowWrite engine
      (engine.storeChain header row (supersede txn new (engine.prune (engine.loadChain header row)))) header row txn
      (some new) := by
  obtain ⟨newest, older, split, live⟩ := newest_live_of_writable passed
  rw [split]
  refine rowWrite_storeChain found supersede_ne_nil ?_ ?_
  · intro creates deletes noneMild held holds
    rw [split]
    rcases Holds.of_supersede noneMild live holds with ⟨rfl, counts⟩ | before
    · exact Or.inl ⟨rfl, counts⟩
    · exact Or.inr before
  · intro xid mentioned
    by_cases none : xid = noTxn
    · exact Or.inl none
    · by_cases own : xid = txn
      · exact Or.inr (Or.inl own)
      · rw [split]
        exact Or.inr (Or.inr ((mentions_supersede live own none new).mp mentioned))

private theorem rowWrite_delete (found : engine.tables header = some stored)
    (passed : engine.writableVersion snap (engine.prune (engine.loadChain header row)) = .ok ()) : RowWrite engine
      (engine.storeChain header row (markDeleted txn (engine.prune (engine.loadChain header row))))
      header row txn none := by
  obtain ⟨newest, older, split, live⟩ := newest_live_of_writable passed
  rw [split]
  refine rowWrite_storeChain found markDeleted_ne_nil ?_ ?_
  · intro creates deletes noneMild held holds
    rw [split]
    exact Or.inr (Holds.of_markDeleted noneMild live holds)
  · intro xid mentioned
    by_cases none : xid = noTxn
    · exact Or.inl none
    · by_cases own : xid = txn
      · exact Or.inr (Or.inl own)
      · rw [split]
        exact Or.inr (Or.inr ((mentions_markDeleted live own none).mp mentioned))

private theorem rowWrite_insert (found : engine.tables header = some stored) : RowWrite engine
      ((engine.allocRowId header).2.storeChain header stored.nextRow [Version.live txn new]) header
      stored.nextRow txn (some new) := by
  have allocated : (engine.allocRowId header).2.tables header =
      some { stored with nextRow := stored.nextRow + 1 } := by
    simp [allocRowId, found]
  have same : (engine.allocRowId header).2.catalog = engine.catalog ∧
      (engine.allocRowId header).2.nextHeader = engine.nextHeader ∧
      (engine.allocRowId header).2.filters = engine.filters := by
    simp [allocRowId, found]
  have nonempty : [Version.live txn new] ≠ [] := by simp
  refine ⟨by simp, ?_, ?_, ?_, ?_, ?_, ?_, ?_⟩
  · rw [storeChain_of_ne_nil allocated nonempty]
    exact same.1
  · rw [storeChain_of_ne_nil allocated nonempty]
    exact same.2.1
  · rw [storeChain_of_ne_nil allocated nonempty]
    exact same.2.2
  · intro probe
    rw [stored_storeChain allocated nonempty]
    by_cases here : probe = header <;> simp [allocRowId, found, here]
  · intro probe probeRow other
    rw [loadChain_storeChain allocated nonempty, if_neg other, loadChain_allocRowId]
  · intro creates deletes _ _ value holds
    rw [loadChain_storeChain allocated nonempty, if_pos ⟨rfl, rfl⟩] at holds
    obtain ⟨rfl, counts⟩ := holds.of_live
    exact Or.inl ⟨rfl, counts⟩
  · intro xid mentioned
    rw [loadChain_storeChain allocated nonempty, if_pos ⟨rfl, rfl⟩] at mentioned
    obtain ⟨version, member, which⟩ := mentioned
    obtain rfl := List.mem_singleton.mp member
    rcases which with rfl | rfl
    · exact Or.inr (Or.inl rfl)
    · exact Or.inl rfl

/-! ## The calls -/

/-- The unique check of a row write, or the reason it never came to that. -/
theorem insertUnique_cases (hasher : Hasher) (engine : Engine) (txn : TxnId) (table : TableId)
    (new : Row) (unique : List UniqueKey) :
    (∃ error, engine.insertUnique hasher txn table new unique = (.error error, engine)) ∨
      ∃ snap header stored, engine.snapshotOf txn = .ok snap ∧
        engine.tableRef snap table = .ok header ∧ engine.tables header = some stored ∧
        ((∃ error, (engine.checkUnique hasher txn table header new none unique).1 = .error error ∧
            engine.insertUnique hasher txn table new unique =
              (.error error, (engine.checkUnique hasher txn table header new none unique).2)) ∨
          ((engine.checkUnique hasher txn table header new none unique).1 = .ok () ∧
            (engine.insertUnique hasher txn table new unique).1 = .ok stored.nextRow ∧
            RowWrite (engine.checkUnique hasher txn table header new none unique).2
              (engine.insertUnique hasher txn table new unique).2 header stored.nextRow txn
              (some new))) := by
  cases pinned : engine.snapshotOf txn with
  | error e => exact Or.inl ⟨e, by simp [insertUnique, pinned]⟩
  | ok snap =>
    cases named : engine.tableRef snap table with
    | error e => exact Or.inl ⟨e, by simp [insertUnique, pinned, named]⟩
    | ok header =>
      obtain ⟨-, stored, -, -, found⟩ := tableRef_ok named
      refine Or.inr ⟨snap, header, stored, rfl, named, found, ?_⟩
      obtain ⟨filters, changed⟩ := checkUnique_eq hasher engine txn table header new none unique
      cases checked : engine.checkUnique hasher txn table header new none unique with
      | mk answer after =>
        rw [checked] at changed
        dsimp only at changed
        subst changed
        cases answer with
        | error e => exact Or.inl ⟨e, rfl, by simp [insertUnique, pinned, named, checked]⟩
        | ok =>
          refine Or.inr ⟨rfl, ?_, ?_⟩
          · simp [insertUnique, pinned, named, checked, allocRowId, found]
          · have isNext : (allocRowId { engine with filters := filters } header).1 =
                stored.nextRow := by
              simp [allocRowId, found]
            simp only [insertUnique, pinned, named, checked, isNext]
            exact rowWrite_insert found

theorem updateUnique_cases (hasher : Hasher) (engine : Engine) (txn : TxnId) (table : TableId)
    (row : RowId) (new : Row) (unique : List UniqueKey) :
    (∃ error, engine.updateUnique hasher txn table row new unique = (.error error, engine)) ∨
      ∃ snap header stored, engine.snapshotOf txn = .ok snap ∧
        engine.tableRef snap table = .ok header ∧ engine.tables header = some stored ∧
        ((∃ error, engine.updateUnique hasher txn table row new unique =
              (.error error, (engine.checkUnique hasher txn table header new (some row) unique).2)) ∨
          ((engine.checkUnique hasher txn table header new (some row) unique).1 = .ok () ∧
            (engine.updateUnique hasher txn table row new unique).1 = .ok () ∧
            RowWrite (engine.checkUnique hasher txn table header new (some row) unique).2
              (engine.updateUnique hasher txn table row new unique).2 header row txn (some new))) := by
  cases pinned : engine.snapshotOf txn with
  | error e => exact Or.inl ⟨e, by simp [updateUnique, pinned]⟩
  | ok snap =>
    cases named : engine.tableRef snap table with
    | error e => exact Or.inl ⟨e, by simp [updateUnique, pinned, named]⟩
    | ok header =>
      obtain ⟨-, stored, -, -, found⟩ := tableRef_ok named
      refine Or.inr ⟨snap, header, stored, rfl, named, found, ?_⟩
      obtain ⟨filters, changed⟩ := checkUnique_eq hasher engine txn table header new (some row) unique
      cases checked : engine.checkUnique hasher txn table header new (some row) unique with
      | mk answer after =>
        rw [checked] at changed
        dsimp only at changed
        subst changed
        cases answer with
        | error e => exact Or.inl ⟨e, by simp [updateUnique, pinned, named, checked]⟩
        | ok =>
          simp only [updateUnique, pinned, named, checked]
          cases passed : writableVersion { engine with filters := filters } snap
              (prune { engine with filters := filters }
                (loadChain { engine with filters := filters } header row)) with
          | error e => exact Or.inl ⟨e, rfl⟩
          | ok => exact Or.inr ⟨trivial, rfl, rowWrite_update found passed⟩

theorem delete_cases (engine : Engine) (txn : TxnId) (table : TableId) (row : RowId) :
    (∃ error, engine.delete txn table row = (.error error, engine)) ∨
      ∃ snap header, engine.snapshotOf txn = .ok snap ∧ engine.tableRef snap table = .ok header ∧
        RowWrite engine (engine.delete txn table row).2 header row txn none := by
  cases pinned : engine.snapshotOf txn with
  | error e => exact Or.inl ⟨e, by simp [delete, pinned]⟩
  | ok snap =>
    cases named : engine.tableRef snap table with
    | error e => exact Or.inl ⟨e, by simp [delete, pinned, named]⟩
    | ok header =>
      obtain ⟨-, stored, -, -, found⟩ := tableRef_ok named
      cases passed : engine.writableVersion snap (engine.prune (engine.loadChain header row)) with
      | error e => exact Or.inl ⟨e, by simp [delete, pinned, named, passed]⟩
      | ok =>
        refine Or.inr ⟨snap, header, rfl, named, ?_⟩
        simp only [delete, pinned, named, passed]
        exact rowWrite_delete found passed

end Ferrite.Storage.Engine
