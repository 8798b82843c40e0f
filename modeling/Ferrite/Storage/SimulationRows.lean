import Ferrite.Storage.Effects
import Ferrite.Storage.SimulationTxns

/-!
# Row steps of the simulation

Reads return what the reference model returns, and an accepted write changes
both sides alike.
-/

namespace Ferrite.Storage

open Logical

variable {table : TableId} {order : CommitOrder} {engine engine' : Engine} {model : Model}
  {txn : TxnId} {state : ModelTxn} {opened : TxnState} {row : RowId} {value : Option Row}

namespace Related

/-! ## Reads -/

variable {chain : List (Version Row)} {xid : TxnId}

theorem view_eq (rel : Related table order engine model) (inModel : model.txns txn = some state)
    (txnRel : TxnRel order engine txn opened state) (row : RowId) :
    engine.visibleVersion opened.snapshot (engine.loadChain 1 row) = (model.view state row).join := by
  obtain ⟨-, real, -⟩ := rel.ordered.unresolved txn state inModel
  have visible : engine.visibleTxn opened.snapshot = order.ownSees txn state.beginSeq :=
    funext (txnRel.visibleTxn_eq real rel.ordered.noneOpen rel.committed)
  rw [Engine.visibleVersion_eq_selectVersion, visible, ← (rel.rows row).view rel.ordered inModel]
  refine (selectVersion_cleanBy ?_ (rel.ordered.ownSees_noTxn inModel _) _).symm
  intro xid dead
  rw [rel.isAborted_eq] at dead
  have gone : model.txns xid = none ∧ order xid = none := by
    simp only [Bool.and_eq_true, Bool.not_eq_true', Option.isSome_eq_false_iff, Option.isNone_iff_eq_none] at dead
    exact ⟨dead.1.2, dead.2⟩
  have other : xid ≠ txn := by
    rintro rfl
    simp [inModel] at gone
  simp [CommitOrder.ownSees, other, CommitOrder.sees_of_none gone.2]

/-- An open transaction has its snapshot and finds the table. -/
theorem open_eq (rel : Related table order engine model) (inEngine : engine.active.lookup txn = some opened)
    (inModel : model.txns txn = some state) :
    engine.snapshotOf txn = .ok opened.snapshot ∧ engine.tableRef opened.snapshot table = .ok 1 :=
  ⟨by simp [Engine.snapshotOf, inEngine], rel.tableRef_eq inModel (rel.txns txn opened state inEngine inModel)⟩

theorem get_eq (rel : Related table order engine model)
    (inEngine : engine.active.lookup txn = some opened) (inModel : model.txns txn = some state)
    (row : RowId) :
    Outcome.ofRow (engine.get txn table row) =
      match (model.view state row).join with
      | some value => .row value
      | none => .failed .rowNotFound := by
  have txnRel := rel.txns txn opened state inEngine inModel
  obtain ⟨pinned, named⟩ := rel.open_eq inEngine inModel
  simp only [Engine.get, pinned, named, rel.view_eq inModel txnRel]
  cases (model.view state row).join <;> rfl

/-- Every row of the model is met once, in order, by a walk over the tree. -/
theorem scan_rows (rel : Related table order engine model) (read : List (Version Row) → Option Row)
    (readNil : read [] = none) :
    ((engine.rowsOf 1).entries.filterMap fun entry => (read entry.2).map fun found => (entry.1, found)) =
      (List.range model.nextRow).filterMap fun row =>
        (read (engine.loadChain 1 row)).map fun found => (row, found) := by
  have keys : (engine.rowsOf 1).entries.filterMap (fun entry => (read entry.2).map fun found => (entry.1, found)) =
      ((engine.rowsOf 1).entries.map Prod.fst).filterMap fun row =>
        (read (engine.loadChain 1 row)).map fun found => (row, found) := by
    rw [List.filterMap_map]
    refine List.filterMap_congr fun entry member => ?_
    obtain ⟨key, chain⟩ := entry
    have found := (OrderedMap.mem_entries_iff _).mp member
    simp [Engine.loadChain, found]
  have sublist : (engine.rowsOf 1).entries.map Prod.fst =
      (List.range model.nextRow).filter fun row => ((engine.rowsOf 1).find? row).isSome := by
    refine (engine.rowsOf 1).keys_ordered.eq_of_mem_iff (List.pairwise_lt_range.filter _) ?_
    intro row
    rw [OrderedMap.mem_keys_iff, List.mem_filter, List.mem_range]
    refine ⟨fun bound => ⟨?_, bound⟩, And.right⟩
    by_contra beyond
    simp [(rel.fresh row (not_lt.mp beyond)).1] at bound
  rw [keys, sublist, List.filterMap_filter]
  refine List.filterMap_congr fun row _ => ?_
  cases found : (engine.rowsOf 1).find? row with
  | none => simp [Engine.loadChain, found, readNil]
  | some chain => simp

theorem scan_eq (rel : Related table order engine model)
    (inEngine : engine.active.lookup txn = some opened) (inModel : model.txns txn = some state) :
    Outcome.ofRows (engine.scan txn table) = .rows (model.visibleRows state) := by
  have txnRel := rel.txns txn opened state inEngine inModel
  obtain ⟨pinned, named⟩ := rel.open_eq inEngine inModel
  rw [Engine.scan_eq pinned named]
  have walk := rel.scan_rows (engine.visibleVersion opened.snapshot) rfl
  simp only [rel.view_eq inModel txnRel] at walk
  exact congrArg Outcome.rows walk

/-! ## Writes -/

/-- The filters play no part in the relation. -/
theorem withFilters (rel : Related table order engine model) (filters : KeyFilters) :
    Related table order { engine with filters := filters } model where
  ordered := rel.ordered
  nextTxn := rel.nextTxn
  committed := rel.committed
  directory := rel.directory
  opened := rel.opened
  txns txn opened state inEngine inModel := (rel.txns txn opened state inEngine inModel).transport rfl (le_refl _)
      (fun _ running => Or.inl running) (fun _ _ found => Or.inl found)
  creator := rel.creator
  catalog := rel.catalog
  header := rel.header
  rows := rel.rows
  below := rel.below
  fresh := rel.fresh

/-- The writer and everybody committed are alive. -/
theorem notAborted (rel : Related table order engine model) (inModel : model.txns txn = some state)
    (inOrder : ChainOk order (some txn) chain) (mentioned : Mentions chain xid) : engine.isAborted xid = false := by
  rw [rel.isAborted_eq]
  rcases inOrder.known mentioned with none | committed | writer
  · simp [none]
  · simp [committed]
  · obtain rfl := Option.some.inj writer
    simp [inModel]

private theorem issued (rel : Related table order engine model) (inModel : model.txns txn = some state)
    (inOrder : ChainOk order (some txn) chain) (mentioned : Mentions chain xid) : xid < engine.nextTxnId := by
  rw [rel.nextTxn]
  rcases inOrder.known mentioned with none | committed | writer
  · exact none ▸ Nat.zero_lt_of_lt (rel.ordered.issued 1 0 rel.creator)
  · obtain ⟨at_, found⟩ := Option.isSome_iff_exists.mp committed
    exact rel.ordered.issued xid at_ found
  · obtain rfl := Option.some.inj writer
    exact (rel.ordered.unresolved _ state inModel).2.2.1

/-- Storing the chain of an accepted write. `nextRow` is what the table's header
says afterwards. -/
theorem wrote (rel : Related table order engine model) (inModel : model.txns txn = some state) {stored : Table}
    {nextRow : RowId} (header : engine.tables 1 = some stored) (sameNext : engine'.nextTxnId = engine.nextTxnId)
    (sameClog : engine'.clog = engine.clog) (sameCatalog : engine'.catalog = engine.catalog)
    (sameActive : engine'.active = engine.active)
    (header' : engine'.tables 1 = some ⟨nextRow, stored.rows.insert row chain⟩) (grows : model.nextRow ≤ nextRow)
    (inside : row < nextRow) (rowRel : RowRel order (model.recordWrite txn state row value) row chain) :
    Related table order engine' { model.recordWrite txn state row value with nextRow := nextRow } := by
  have sameCommitted : engine'.isCommitted = engine.isCommitted := by
    funext xid
    rw [Engine.isCommitted, sameClog, Engine.isCommitted]
  have sameOpen : engine'.isActive = engine.isActive := by
    funext probe
    rw [Engine.isActive, sameActive, Engine.isActive]
  have sameAborted : engine'.isAborted = engine.isAborted := by
    funext xid
    rw [Engine.isAborted, Engine.isAborted, sameOpen, sameCommitted]
  have newRows : ∀ probe, (engine'.rowsOf 1).find? probe =
      if probe = row then some chain else (engine.rowsOf 1).find? probe := by
    intro probe
    simp [Engine.rowsOf, header, header']
  have newChain : ∀ probe, engine'.loadChain 1 probe =
      if probe = row then chain else engine.loadChain 1 probe := by
    intro probe
    rw [Engine.loadChain, newRows, Engine.loadChain]
    by_cases same : probe = row <;> simp [same]
  have changed : ∀ {probe probeState}, (model.recordWrite txn state row value).txns probe = some probeState →
        ∃ before, model.txns probe = some before ∧ probeState.beginSeq = before.beginSeq ∧
          ∀ other, other ≠ row → probeState.writes other = before.writes other := by
    intro probe probeState probeOpened
    by_cases same : probe = txn
    · subst same
      refine ⟨state, inModel, ?_⟩
      simp only [Model.recordWrite, if_true, Option.some.injEq] at probeOpened
      subst probeOpened
      exact ⟨rfl, fun other different => by simp [ModelTxn.wrote, different]⟩
    · exact ⟨probeState, by simpa [Model.recordWrite, same] using probeOpened, rfl, fun _ _ => rfl⟩
  have ordered : OrderOk order (model.recordWrite txn state row value) := by
    refine ⟨rel.ordered.noneOpen, rel.ordered.past, rel.ordered.issued, ?_⟩
    intro probe probeState probeOpened
    obtain ⟨before, opened, sameLine, -⟩ := changed probeOpened
    rw [sameLine]
    exact rel.ordered.unresolved probe before opened
  have inOrder : ChainOk order (some txn) chain := by simpa [Model.recordWrite] using rowRel.inOrder
  constructor
  · exact ⟨ordered.noneOpen, ordered.past, ordered.issued, ordered.unresolved⟩
  · exact sameNext.trans rel.nextTxn
  · rw [sameCommitted]
    exact rel.committed
  · rw [sameClog]
    exact rel.directory
  · intro probe
    rw [sameOpen, rel.opened]
    by_cases same : probe = txn <;> simp [Model.recordWrite, same, inModel]
  · intro probe probeOpened probeState inEngine' inModel'
    obtain ⟨before, opened, sameLine, -⟩ := changed inModel'
    rw [sameActive] at inEngine'
    refine (rel.txns probe probeOpened before inEngine' opened).transport sameLine
      (le_of_eq sameNext.symm) (fun other running => ?_) (fun _ _ found => Or.inl found)
    rw [sameOpen] at running
    exact Or.inl running
  · exact rel.creator
  · rw [sameCatalog]
    exact rel.catalog
  · exact ⟨_, header', rfl⟩
  · intro probe
    rw [newChain, sameAborted]
    by_cases same : probe = row
    · subst same
      have clean : cleanBy engine.isAborted chain = chain := cleanBy_eq_self fun version member =>
          ⟨rel.notAborted inModel inOrder ⟨version, member, Or.inl rfl⟩,
            rel.notAborted inModel inOrder ⟨version, member, Or.inr rfl⟩⟩
      rw [if_pos rfl, clean]
      exact ⟨rowRel.inOrder, rowRel.reads, rowRel.newer, rowRel.past, rowRel.owner, rowRel.strangers⟩
    · rw [if_neg same]
      refine (rel.rows probe).transport rel.ordered (fun _ _ => rfl) ?_ (le_refl _) ?_ ?_ ?_
      · simp [Model.recordWrite, same]
      · rintro seq (now | ⟨other, otherState, otherOpened, rfl⟩)
        · exact Or.inl (Or.inl now)
        · obtain ⟨before, opened, sameLine, -⟩ := changed otherOpened
          exact Or.inl (sameLine ▸ Model.reached_open opened)
      · intro owner ownerState ownerOpened _
        by_cases mine : owner = txn
        · subst mine
          obtain rfl : state = ownerState := by simpa [inModel] using ownerOpened
          exact ⟨state.wrote row value, by simp [Model.recordWrite], by simp [ModelTxn.wrote, same],
            le_refl _⟩
        · exact ⟨ownerState, by simpa [Model.recordWrite, mine] using ownerOpened, rfl, le_refl _⟩
      · intro owner ownerState ownerOpened
        obtain ⟨before, opened, -, sameWrites⟩ := changed ownerOpened
        exact Or.inr ⟨before, opened, sameWrites probe same⟩
  · intro probe version member
    rw [newChain] at member
    rw [sameNext]
    split at member
    · exact ⟨rel.issued inModel inOrder ⟨version, member, Or.inl rfl⟩,
        rel.issued inModel inOrder ⟨version, member, Or.inr rfl⟩⟩
    · exact rel.below probe version member
  · intro probe beyond
    have outside : probe ≠ row := by
      rintro rfl
      exact absurd inside (not_lt.mpr beyond)
    obtain ⟨missing, empty⟩ := rel.fresh probe (le_trans grows beyond)
    refine ⟨by rw [newRows, if_neg outside, missing], ?_⟩
    simpa [Model.recordWrite, outside] using empty

/-- The pruned chain of a row a transaction may write to, and where it is stored. -/
theorem accepted (rel : Related table order engine model)
    (inEngine : engine.active.lookup txn = some opened) (inModel : model.txns txn = some state) (row : RowId) :
    engine.writableVersion opened.snapshot (engine.prune (engine.loadChain 1 row)) =
        model.writeOutcome txn state row ∧
      (model.writeOutcome txn state row = .ok () → row < model.nextRow ∧ ∃ newest older,
          engine.prune (engine.loadChain 1 row) = newest :: older ∧ newest.xmax = noTxn ∧
            Writable order model row txn state (newest :: older)) := by
  obtain ⟨-, real, -⟩ := rel.ordered.unresolved txn state inModel
  have txnRel := rel.txns txn opened state inEngine inModel
  have visible := txnRel.visibleTxn_eq real rel.ordered.noneOpen rel.committed
  have pruned := rel.pruned row
  have outcome := pruned.writableVersion_eq rel.ordered inModel txnRel.pinned visible
    fun _ mentioned => rel.alive pruned mentioned
  refine ⟨outcome, fun passed => ?_⟩
  obtain ⟨newest, older, split, live, writable⟩ :=
    pruned.writable_of_ok rel.ordered inModel visible (fun _ mentioned => rel.alive pruned mentioned)
      (outcome.trans passed)
  refine ⟨?_, newest, older, split, live, split ▸ writable⟩
  by_contra beyond
  have missing := (rel.fresh row (not_lt.mp beyond)).1
  simp [Engine.loadChain, missing, Engine.prune, Engine.pruneBelow] at split

/-- Storing an accepted write to an existing row. -/
theorem stored (rel : Related table order engine model) (inModel : model.txns txn = some state)
    (inside : row < model.nextRow) (nonempty : chain ≠ [])
    (rowRel : RowRel order (model.recordWrite txn state row value) row chain) :
    Related table order (engine.storeChain 1 row chain) (model.recordWrite txn state row value) := by
  obtain ⟨held, header, sameNext⟩ := rel.header
  rw [Engine.storeChain_of_ne_nil header nonempty, sameNext]
  refine rel.wrote inModel header ?_ ?_ ?_ ?_ ?_ (le_refl _) inside rowRel <;> simp

theorem update (rel : Related table order engine model) (hasher : Hasher)
    (inEngine : engine.active.lookup txn = some opened) (inModel : model.txns txn = some state)
    (row : RowId) (new : Row) : Outcome.ofUnit (engine.updateUnique hasher txn table row new []).1 =
        (model.write txn state row (some new)).1 ∧
      Related table order (engine.updateUnique hasher txn table row new []).2
        (model.write txn state row (some new)).2 := by
  obtain ⟨pinned, named⟩ := rel.open_eq inEngine inModel
  have checked := rel.withFilters (engine.filters.invalidate table)
  obtain ⟨outcome, accepted⟩ := checked.accepted inEngine inModel row
  simp only [Engine.updateUnique, pinned, named, Engine.checkUnique, List.isEmpty_nil, if_true, outcome, Model.write]
  cases decided : model.writeOutcome txn state row with
  | error e => exact ⟨rfl, checked⟩
  | ok =>
    obtain ⟨inside, newest, older, split, live, writable⟩ := accepted decided
    have pruned := checked.pruned row
    rw [split] at pruned ⊢
    exact ⟨rfl, checked.stored inModel inside Engine.supersede_ne_nil
      (pruned.update rel.ordered inModel live writable new)⟩

theorem delete (rel : Related table order engine model)
    (inEngine : engine.active.lookup txn = some opened) (inModel : model.txns txn = some state) (row : RowId) :
    Outcome.ofUnit (engine.delete txn table row).1 = (model.write txn state row none).1 ∧
      Related table order (engine.delete txn table row).2 (model.write txn state row none).2 := by
  obtain ⟨pinned, named⟩ := rel.open_eq inEngine inModel
  obtain ⟨outcome, accepted⟩ := rel.accepted inEngine inModel row
  simp only [Engine.delete, pinned, named, outcome, Model.write]
  cases decided : model.writeOutcome txn state row with
  | error e => exact ⟨rfl, rel⟩
  | ok =>
    obtain ⟨inside, newest, older, split, live, writable⟩ := accepted decided
    have pruned := rel.pruned row
    rw [split] at pruned ⊢
    exact ⟨rfl, rel.stored inModel inside Engine.markDeleted_ne_nil (pruned.delete rel.ordered inModel live writable)⟩

theorem insert (rel : Related table order engine model) (hasher : Hasher)
    (inEngine : engine.active.lookup txn = some opened) (inModel : model.txns txn = some state) (new : Row) :
    Outcome.ofInsert (engine.insertUnique hasher txn table new []).1 = .inserted model.nextRow ∧
      Related table order (engine.insertUnique hasher txn table new []).2
        { model.recordWrite txn state model.nextRow (some new) with
          nextRow := model.nextRow + 1 } := by
  obtain ⟨pinned, named⟩ := rel.open_eq inEngine inModel
  obtain ⟨stored, header, sameNext⟩ := rel.header
  obtain ⟨missing, unwritten⟩ := rel.fresh model.nextRow (le_refl _)
  have rowRel := rel.rows model.nextRow
  have noChain : cleanBy engine.isAborted (engine.loadChain 1 model.nextRow) = [] := by
    simp [Engine.loadChain, missing, cleanBy]
  rw [noChain] at rowRel
  have inserted := rowRel.insert rel.ordered inModel (by simp [unwritten]) new
  simp only [Engine.insertUnique, pinned, named, Engine.checkUnique, List.isEmpty_nil, if_true,
    Engine.allocRowId, header, sameNext]
  refine ⟨rfl, ?_⟩
  refine rel.wrote inModel header ?_ ?_ ?_ ?_ ?_ (Nat.le_succ _) (Nat.lt_succ_self _) inserted <;>
    simp [Engine.storeChain]

end Related
end Ferrite.Storage
