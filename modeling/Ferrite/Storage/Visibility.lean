import Ferrite.Logical.Association
import Ferrite.Storage.Operation

/-!
# Reading chains under a visibility predicate

Every reader of a version chain picks the first version whose creator it sees
and whose deleter it does not. `selectVersion` is that choice for an arbitrary
visibility predicate; the engine's reads and the commit-order reads of the
reference model are both instances of it.
-/

namespace Ferrite.Storage

open Logical

variable {α : Type}

/-- The first version whose creator is seen and whose deleter is not. -/
def selectVersion (sees : TxnId → Bool) : List (Version α) → Option α
  | [] => none
  | version :: older =>
    if sees version.xmin && !sees version.xmax then some version.payload
    else selectVersion sees older

variable {sees : TxnId → Bool} {chain : List (Version α)}

theorem selectVersion_cons (sees : TxnId → Bool) (version : Version α)
    (older : List (Version α)) :
    selectVersion sees (version :: older) =
      if sees version.xmin && !sees version.xmax then some version.payload
      else selectVersion sees older := rfl

/-- Only the ids that occur in a chain matter to a reader of it. -/
theorem selectVersion_congr {sees' : TxnId → Bool} (agree : ∀ version ∈ chain,
      sees version.xmin = sees' version.xmin ∧ sees version.xmax = sees' version.xmax) :
    selectVersion sees chain = selectVersion sees' chain := by
  induction chain with
  | nil => rfl
  | cons version older ih =>
    obtain ⟨creator, deleter⟩ := agree version List.mem_cons_self
    rw [selectVersion_cons, selectVersion_cons, creator, deleter,
      ih fun other member => agree other (List.mem_cons_of_mem _ member)]

/-- Nothing is selected from a chain in which every deleter is seen. -/
theorem selectVersion_eq_none (hidden : ∀ version ∈ chain, sees version.xmin = true → sees version.xmax = true) :
    selectVersion sees chain = none := by
  induction chain with
  | nil => rfl
  | cons version older ih =>
    have deleter := hidden version List.mem_cons_self
    rw [selectVersion_cons, ih fun other member => hidden other (List.mem_cons_of_mem _ member)]
    cases creator : sees version.xmin with
    | false => simp
    | true => simp [deleter creator]

/-- Dropping versions a reader would skip anyway does not change what it reads. -/
theorem selectVersion_filter {keep : Version α → Bool}
    (dropped : ∀ version ∈ chain, keep version = false → sees version.xmax = true) :
    selectVersion sees (chain.filter keep) = selectVersion sees chain := by
  induction chain with
  | nil => rfl
  | cons version older ih =>
    have olderSame := ih fun other member => dropped other (List.mem_cons_of_mem _ member)
    cases kept : keep version with
    | true => simp [kept, selectVersion_cons, olderSame]
    | false =>
      have deleter := dropped version List.mem_cons_self kept
      simp [kept, selectVersion_cons, deleter, olderSame]

namespace Engine

variable {engine : Engine} {snap : Snapshot} {xid txn : TxnId}

@[simp] theorem visibleTxn_noTxn (engine : Engine) (snap : Snapshot) : engine.visibleTxn snap noTxn = false := by
  simp [visibleTxn]

/-- A snapshot sees whatever committed before it was taken. -/
theorem visibleTxn_of_committed (real : xid ≠ noTxn) (below : xid < snap.xmin) (notRunning : xid ∉ snap.activeAtStart)
    (committed : engine.isCommitted xid = true) : engine.visibleTxn snap xid = true := by
  simp [visibleTxn, real, not_le.mpr below, notRunning, committed]

/-- A read of the engine selects under the visibility of its snapshot. -/
theorem visibleVersion_eq_selectVersion (engine : Engine) (snap : Snapshot) (chain : List (Version α)) :
    engine.visibleVersion snap chain = selectVersion (engine.visibleTxn snap) chain := by
  induction chain with
  | nil => rfl
  | cons version older ih =>
    rw [visibleVersion, selectVersion_cons, ih]
    by_cases deleted : version.xmax = noTxn
    · cases engine.visibleTxn snap version.xmin <;> simp [deleted]
    · cases engine.visibleTxn snap version.xmin <;>
        cases engine.visibleTxn snap version.xmax <;> simp [deleted]

/-! ## The active set -/

@[simp] theorem lookup_close (engine : Engine) (txn probe : TxnId) : (engine.close txn).active.lookup probe =
      if probe = txn then none else engine.active.lookup probe :=
  lookup_filter_ne engine.active txn probe

/-- Beginning opens one transaction and leaves the others. -/
theorem lookup_begin (engine : Engine) (probe : TxnId) : engine.begin.2.active.lookup probe =
      (engine.active.lookup probe).or
        (if probe = engine.nextTxnId then
          some ⟨{ engine with nextTxnId := engine.nextTxnId + 1 }.takeSnapshot engine.nextTxnId, []⟩
        else none) := by
  simp only [begin, List.lookup_append]
  by_cases same : probe = engine.nextTxnId
  · simp [same]
  · have different : (probe == engine.nextTxnId) = false := by simpa using same
    simp [List.lookup_cons, different, same]

/-- A new snapshot is that of one transaction only. -/
theorem lookup_snapshot (opened : engine.isActive txn = true) (probe : TxnId) :
    (engine.snapshot txn).2.active.lookup probe =
      if probe = txn then
        (engine.active.lookup probe).map fun state => { state with snapshot := engine.takeSnapshot txn }
      else engine.active.lookup probe := by
  simp only [snapshot, opened, if_true]
  exact lookup_map_at engine.active txn probe fun state =>
    { state with snapshot := engine.takeSnapshot txn }

/-- A snapshot remembers who else was running. -/
theorem mem_activeAtStart (engine : Engine) (txn probe : TxnId) : probe ∈ (engine.takeSnapshot txn).activeAtStart ↔
      engine.isActive probe = true ∧ probe ≠ txn := by
  simp [takeSnapshot, List.mem_insertionSort, isActive]

theorem sorted_activeAtStart (engine : Engine) (txn : TxnId) :
    (engine.takeSnapshot txn).activeAtStart.Pairwise (· ≤ ·) :=
  List.pairwise_insertionSort _ _

/-! ## The pruning horizon -/

/-- Everything running when the snapshot was taken lies at or above its floor. -/
theorem snapshotFloor_le_of_mem (sorted : snap.activeAtStart.Pairwise (· ≤ ·)) (running : xid ∈ snap.activeAtStart) :
    snapshotFloor snap ≤ xid := by
  unfold snapshotFloor
  cases started : snap.activeAtStart with
  | nil => simp [started] at running
  | cons first rest =>
    rw [started] at sorted running
    refine le_trans (min_le_left _ _) ?_
    rcases List.mem_cons.mp running with equal | later
    · simp [equal]
    · simpa using (List.pairwise_cons.mp sorted).1 xid later

theorem snapshotFloor_le_xmin (snap : Snapshot) : snapshotFloor snap ≤ snap.xmin := min_le_right _ _

private theorem foldl_min_le (entries : List (TxnId × TxnState)) (start : TxnId) :
    (entries.foldl (fun horizon entry => min horizon (snapshotFloor entry.2.snapshot)) start ≤ start) ∧
      ∀ entry ∈ entries, entries.foldl (fun horizon entry => min horizon (snapshotFloor entry.2.snapshot)) start ≤
          snapshotFloor entry.2.snapshot := by
  induction entries generalizing start with
  | nil => simp
  | cons head rest ih =>
    obtain ⟨belowStart, belowEntries⟩ := ih (min start (snapshotFloor head.2.snapshot))
    refine ⟨le_trans belowStart (min_le_left _ _), ?_⟩
    intro entry member
    rcases List.mem_cons.mp member with equal | inRest
    · subst equal
      exact le_trans belowStart (min_le_right _ _)
    · exact belowEntries entry inRest

/-- The horizon lies at or below what every open transaction still cares about. -/
theorem pruneHorizon_le {state : TxnState} (opened : engine.active.lookup txn = some state) :
    engine.pruneHorizon ≤ snapshotFloor state.snapshot :=
  (foldl_min_le engine.active engine.nextTxnId).2 _ (mem_of_lookup opened)

end Engine
end Ferrite.Storage
