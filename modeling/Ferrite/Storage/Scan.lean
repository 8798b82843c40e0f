import Ferrite.Storage.Operation

/-!
# What a consumed scan returns

The iterator re-seeks from a cursor at every step. Consumed with no other
operation in between, it lists the visible value of every row, in row-id order.
-/

namespace Ferrite.Storage.Engine

open Logical

variable {engine : Engine} {snap : Snapshot} {rows : OrderedMap RowId (List (Version Row))}

/-- What a scan makes of one key of the tree. -/
def visibleEntry (engine : Engine) (snap : Snapshot) (entry : RowId × List (Version Row)) : Option (RowId × Row) :=
  (engine.visibleVersion snap entry.2).map fun row => (entry.1, row)

/-- A cursor that has passed `before` and nothing of `after`. -/
structure CursorAt (rows : OrderedMap RowId (List (Version Row))) (cursor : RowId)
    (after : List (RowId × List (Version Row))) : Prop where
  suffix : ∃ before, rows.entries = before ++ after ∧ ∀ entry ∈ before, entry.1 < cursor
  ahead : ∀ entry ∈ after, cursor ≤ entry.1

private theorem CursorAt.seek {cursor : RowId} {after : List (RowId × List (Version Row))}
    (place : CursorAt rows cursor after) : rows.seek cursor = after.head? := by
  obtain ⟨⟨before, split, passed⟩, ahead⟩ := place
  have skipped : before.find? (fun entry => decide (cursor ≤ entry.1)) = none := by
    rw [List.find?_eq_none]
    intro entry member
    simpa using passed entry member
  rw [OrderedMap.seek, split, List.find?_append, skipped]
  cases after with
  | nil => rfl
  | cons next rest => simp [ahead next List.mem_cons_self]

/-- Moving past a key leaves the keys behind it. -/
theorem CursorAt.next {cursor key : RowId} {chain : List (Version Row)} {rest : List (RowId × List (Version Row))}
    (place : CursorAt rows cursor ((key, chain) :: rest)) : CursorAt rows (key + 1) rest := by
  obtain ⟨⟨before, split, passed⟩, ahead⟩ := place
  have ordered := rows.ordered
  rw [split, List.pairwise_append, List.pairwise_cons] at ordered
  refine ⟨⟨before ++ [(key, chain)], by simp [split], ?_⟩, ?_⟩
  · intro entry member
    rcases List.mem_append.mp member with earlier | atKey
    · exact Nat.lt_succ_of_lt (ordered.2.2 entry earlier _ List.mem_cons_self)
    · rw [List.mem_singleton.mp atKey]
      exact Nat.lt_succ_self key
  · intro entry member
    exact ordered.2.1.1 entry member

private theorem scanLoop_eq {fuel cursor : Nat} {after : List (RowId × List (Version Row))}
    (place : CursorAt rows cursor after) (enough : after.length < fuel) :
    engine.scanLoop snap rows fuel cursor = (after.filterMap (engine.visibleEntry snap)).head? := by
  induction after generalizing fuel cursor with
  | nil =>
    cases fuel with
    | zero => rfl
    | succ fuel => simp [scanLoop, place.seek]
  | cons entry rest ih =>
    obtain ⟨key, chain⟩ := entry
    cases fuel with
    | zero => simp at enough
    | succ fuel =>
      have enoughLater : rest.length < fuel := by simpa using enough
      have later := ih place.next enoughLater
      cases found : engine.visibleVersion snap chain with
      | some row => simp [scanLoop, place.seek, found, visibleEntry]
      | none => simp [scanLoop, place.seek, found, visibleEntry, later]

section

variable {txn : TxnId} {table : TableId} {header : HeaderId}
  (pinned : engine.snapshotOf txn = .ok snap) (named : engine.tableRef snap table = .ok header)

include pinned named

private theorem scanStep_eq {cursor : RowId} {after : List (RowId × List (Version Row))}
    (place : CursorAt (engine.rowsOf header) cursor after) : engine.scanStep txn table cursor =
      .ok (after.filterMap (engine.visibleEntry snap)).head? := by
  have enough : after.length < (engine.rowsOf header).entries.length + 1 := by
    obtain ⟨⟨before, split, -⟩, -⟩ := place
    simp only [split, List.length_append]
    omega
  simp [scanStep, pinned, named, scanLoop_eq place enough]

private theorem scanFrom_eq {fuel : Nat} {cursor : RowId} {after : List (RowId × List (Version Row))}
    (place : CursorAt (engine.rowsOf header) cursor after) (enough : after.length < fuel) :
    engine.scanFrom txn table fuel cursor = .ok (after.filterMap (engine.visibleEntry snap)) := by
  induction after generalizing fuel cursor with
  | nil =>
    obtain ⟨fuel, rfl⟩ := Nat.exists_eq_succ_of_ne_zero (Nat.ne_zero_of_lt enough)
    simp [scanFrom, scanStep_eq pinned named place]
  | cons entry rest ih =>
    obtain ⟨key, chain⟩ := entry
    obtain ⟨fuel, rfl⟩ := Nat.exists_eq_succ_of_ne_zero (Nat.ne_zero_of_lt enough)
    have atCursor := scanStep_eq pinned named place
    cases found : engine.visibleVersion snap chain with
    | some row =>
      have enoughLater : rest.length < fuel := by simpa using enough
      have later := ih place.next enoughLater
      simp only [visibleEntry, found, List.filterMap_cons, Option.map_some, List.head?_cons] at atCursor
      simp [scanFrom, atCursor, later, visibleEntry, found]
    | none =>
      -- An invisible key costs no step of the iterator: both cursors find the same row.
      have later := ih place.next (Nat.lt_of_succ_lt enough)
      have afterKey := scanStep_eq pinned named place.next
      simp only [visibleEntry, found, List.filterMap_cons, Option.map_none] at atCursor
      rw [scanFrom, afterKey] at later
      rw [scanFrom, atCursor]
      simpa [visibleEntry, found] using later

/-- A scan lists the visible value of every key, in key order. -/
theorem scan_eq : engine.scan txn table =
      .ok ((engine.rowsOf header).entries.filterMap (engine.visibleEntry snap)) := by
  have start : CursorAt (engine.rowsOf header) 0 (engine.rowsOf header).entries :=
    ⟨⟨[], rfl, by simp⟩, fun entry _ => Nat.zero_le entry.1⟩
  simpa [scan, pinned, named] using scanFrom_eq pinned named start (Nat.lt_succ_self _)

end

private theorem mem_visibleEntry {row : RowId} {value : Row} :
    (row, value) ∈ rows.entries.filterMap (engine.visibleEntry snap) ↔
      engine.visibleVersion snap ((rows.find? row).getD []) = some value := by
  rw [List.mem_filterMap]
  constructor
  · rintro ⟨⟨key, chain⟩, listed, shown⟩
    obtain ⟨_, seen, same⟩ := Option.map_eq_some_iff.mp shown
    cases same
    rwa [rows.mem_entries_iff.mp listed]
  · intro seen
    cases found : rows.find? row with
    | none => simp [found, visibleVersion] at seen
    | some chain => exact ⟨(row, chain), rows.mem_entries_iff.mpr found, by simpa [visibleEntry, found] using seen⟩

/-- In every state a scan lists exactly the rows `get` finds, each once and in the order of their ids,
and fails as `get` does. -/
theorem scan_lists_what_get_finds (engine : Engine) (txn : TxnId) (table : TableId) :
    match engine.scan txn table with
    | .ok found => found.Pairwise (fun one other => one.1 < other.1) ∧
        ∀ row value, (row, value) ∈ found ↔ engine.get txn table row = .ok value
    | .error e => ∀ row, engine.get txn table row = .error e := by
  cases pinned : engine.snapshotOf txn with
  | error e => simp [scan, get, pinned]
  | ok snap =>
    cases named : engine.tableRef snap table with
    | error e => simp [scan, get, pinned, named]
    | ok header =>
      rw [scan_eq pinned named]
      constructor
      · refine List.pairwise_filterMap.mpr ((engine.rowsOf header).ordered.imp fun less => ?_)
        simp only [visibleEntry, Option.map_eq_some_iff]
        rintro _ ⟨_, -, rfl⟩ _ ⟨_, -, rfl⟩
        exact less
      · intro row value
        simp only [mem_visibleEntry, get, pinned, named, loadChain]
        cases engine.visibleVersion snap _ <;> simp

end Ferrite.Storage.Engine
