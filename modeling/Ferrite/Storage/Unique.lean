import Ferrite.Common.Value
import Mathlib.Data.Finset.Insert
import Mathlib.Data.Finset.Card

/-!
# Key filters

The negative cache in front of unique-constraint enforcement
(`ferrite-storage/src/unique.rs`). Per table and key columns it holds a set of
key hashes; a hash it does not hold is taken as proof that no row carries the
key. The standard library's hasher is a parameter: nothing depends on which
function of the fed data it computes.
-/

namespace Ferrite.Storage

/-- What `Hash` feeds to a hasher for one field of a value. -/
inductive HashFeed where
  | discriminant (variant : Nat)
  | boolean (value : Bool)
  | i32 (value : Int32)
  | i64 (value : Int64)
  | u64 (value : UInt64)
  | str (value : String)
  | u128 (value : BitVec 128)
deriving DecidableEq

/-- The final value of `DefaultHasher` as a function of everything fed to it. -/
abbrev Hasher := List HashFeed → UInt64

/-- What one value feeds: its variant, then its content, floats by their bits. -/
def hashFeed : Value → List HashFeed
  | .null => [.discriminant 0]
  | .boolean value => [.discriminant 1, .boolean value]
  | .int4 value => [.discriminant 2, .i32 value]
  | .int8 value => [.discriminant 3, .i64 value]
  | .float8 bits => [.discriminant 4, .u64 bits]
  | .text value => [.discriminant 5, .str value]
  | .timestamp value => [.discriminant 6, .i64 value]
  | .uuid value => [.discriminant 7, .u128 value]
  | .json value => [.discriminant 8, .str value]

def hashKey (hasher : Hasher) (key : List Value) : UInt64 := hasher (key.flatMap hashFeed)

/-- The hashes of one constraint. Once `saturated`, it proves nothing any more. -/
structure Filter where
  hashes : Finset UInt64
  saturated : Bool

namespace Filter

/-- Take in one hash, giving up for good when the capacity is reached. -/
def add (filter : Filter) (hash : UInt64) (capacity : Nat) : Filter :=
  if filter.saturated then filter
  else if capacity ≤ filter.hashes.card then { hashes := ∅, saturated := true }
  else { filter with hashes := insert hash filter.hashes }

/-- Whether the filter fails to prove the hash absent. -/
def mayContain (filter : Filter) (hash : UInt64) : Bool := filter.saturated || decide (hash ∈ filter.hashes)

@[simp] theorem mayContain_add_self (filter : Filter) (hash : UInt64) (capacity : Nat) :
    (filter.add hash capacity).mayContain hash = true := by
  unfold add mayContain
  split
  · rename_i saturated
    simp [saturated]
  · split <;> simp

private theorem mayContain_add (filter : Filter) {probe : UInt64} (hash : UInt64) (capacity : Nat)
    (held : filter.mayContain probe = true) : (filter.add hash capacity).mayContain probe = true := by
  unfold add
  split
  · exact held
  · rename_i notSaturated
    split
    · simp [mayContain]
    · have member : probe ∈ filter.hashes := by
        simpa [mayContain, notSaturated] using held
      simp [mayContain, member]

end Filter

/-- All filters of the process, keyed by table and key columns. -/
structure KeyFilters where
  filters : TableId → List Nat → Option Filter
  capacity : Nat

namespace KeyFilters

/-- No filter is built when the process starts. -/
def new (capacity : Nat) : KeyFilters := ⟨fun _ _ => none, capacity⟩

/-- Whether a filter for this constraint has been built. -/
def isBuilt (keyFilters : KeyFilters) (table : TableId) (columns : List Nat) : Bool :=
  (keyFilters.filters table columns).isSome

/-- Replace the filter of one constraint. -/
def set (keyFilters : KeyFilters) (table : TableId) (columns : List Nat) (filter : Filter) : KeyFilters :=
  { keyFilters with
    filters := fun otherTable otherColumns =>
      if otherTable = table ∧ otherColumns = columns then some filter
      else keyFilters.filters otherTable otherColumns }

/-- Install a freshly scanned set of hashes. -/
def build (keyFilters : KeyFilters) (table : TableId) (columns : List Nat)
    (hashes : Finset UInt64) : KeyFilters :=
  let saturated := decide (keyFilters.capacity ≤ hashes.card)
  keyFilters.set table columns { hashes := if saturated then ∅ else hashes, saturated := saturated }

/-- `false` is taken as proof of absence; `true` only means the table has to be consulted. -/
def mayContain (keyFilters : KeyFilters) (table : TableId) (columns : List Nat)
    (hash : UInt64) : Bool :=
  match keyFilters.filters table columns with
  | some filter => filter.mayContain hash
  | none => true

/-- Record the hash of a checked write. -/
def note (keyFilters : KeyFilters) (table : TableId) (columns : List Nat)
    (hash : UInt64) : KeyFilters :=
  match keyFilters.filters table columns with
  | some filter => keyFilters.set table columns (filter.add hash keyFilters.capacity)
  | none => keyFilters

/-- Drop every filter of `table`. -/
def invalidate (keyFilters : KeyFilters) (table : TableId) : KeyFilters :=
  { keyFilters with
    filters := fun otherTable columns =>
      if otherTable = table then none else keyFilters.filters otherTable columns }

variable {keyFilters : KeyFilters} {table probe : TableId} {columns probeColumns : List Nat}

@[simp] theorem set_filters (filter : Filter) : (keyFilters.set table columns filter).filters probe probeColumns =
      if probe = table ∧ probeColumns = columns then some filter
      else keyFilters.filters probe probeColumns := rfl

@[simp] theorem invalidate_filters : (keyFilters.invalidate table).filters probe columns =
      if probe = table then none else keyFilters.filters probe columns := rfl

/-! ## What a filter fails to rule out -/

theorem mayContain_of_not_built (notBuilt : keyFilters.isBuilt table columns = false) (hash : UInt64) :
    keyFilters.mayContain table columns hash = true := by
  have none : keyFilters.filters table columns = none := by simpa [isBuilt] using notBuilt
  simp [mayContain, none]

/-- A built filter rules out none of the hashes it was built from. -/
theorem mayContain_build {hashes : Finset UInt64} {hash : UInt64} (member : hash ∈ hashes)
    (keyFilters : KeyFilters) (table : TableId) (columns : List Nat) :
    (keyFilters.build table columns hashes).mayContain table columns hash = true := by
  by_cases full : keyFilters.capacity ≤ hashes.card
  · simp [build, mayContain, Filter.mayContain, full]
  · simp [build, mayContain, Filter.mayContain, full, member]

theorem mayContain_build_of_ne (other : ¬(probe = table ∧ probeColumns = columns)) (keyFilters : KeyFilters)
    (hashes : Finset UInt64) (hash : UInt64) :
    (keyFilters.build table columns hashes).mayContain probe probeColumns hash =
      keyFilters.mayContain probe probeColumns hash := by
  simp [build, mayContain, other]

@[simp] theorem mayContain_note_self (keyFilters : KeyFilters) (table : TableId)
    (columns : List Nat) (hash : UInt64) :
    (keyFilters.note table columns hash).mayContain table columns hash = true := by
  unfold note
  split
  · simp [mayContain]
  · rename_i none
    simp [mayContain, none]

theorem mayContain_note {probeHash : UInt64} (held : keyFilters.mayContain probe probeColumns probeHash = true)
    (table : TableId) (columns : List Nat) (hash : UInt64) :
    (keyFilters.note table columns hash).mayContain probe probeColumns probeHash = true := by
  unfold note
  split
  · rename_i filter built
    by_cases same : probe = table ∧ probeColumns = columns
    · obtain ⟨rfl, rfl⟩ := same
      have before : filter.mayContain probeHash = true := by simpa [mayContain, built] using held
      simpa [mayContain] using filter.mayContain_add hash keyFilters.capacity before
    · simpa [mayContain, same] using held
  · exact held

theorem mayContain_note_of_ne (other : probe ≠ table) (keyFilters : KeyFilters) (columns probeColumns : List Nat)
    (hash probeHash : UInt64) : (keyFilters.note table columns hash).mayContain probe probeColumns probeHash =
      keyFilters.mayContain probe probeColumns probeHash := by
  unfold note
  split
  · simp [mayContain, other]
  · rfl

@[simp] theorem mayContain_invalidate (keyFilters : KeyFilters) (table probe : TableId)
    (columns : List Nat) (hash : UInt64) :
    (keyFilters.invalidate table).mayContain probe columns hash =
      (decide (probe = table) || keyFilters.mayContain probe columns hash) := by
  by_cases same : probe = table <;> simp [mayContain, same]

/-! ## Which filters are built -/

@[simp] theorem isBuilt_build (keyFilters : KeyFilters) (table probe : TableId)
    (columns probeColumns : List Nat) (hashes : Finset UInt64) :
    (keyFilters.build table columns hashes).isBuilt probe probeColumns =
      (decide (probe = table ∧ probeColumns = columns) || keyFilters.isBuilt probe probeColumns) := by
  by_cases same : probe = table ∧ probeColumns = columns <;> simp [isBuilt, build, same]

@[simp] theorem isBuilt_note (keyFilters : KeyFilters) (table probe : TableId)
    (columns probeColumns : List Nat) (hash : UInt64) :
    (keyFilters.note table columns hash).isBuilt probe probeColumns = keyFilters.isBuilt probe probeColumns := by
  unfold note
  split
  · rename_i filter built
    by_cases same : probe = table ∧ probeColumns = columns
    · obtain ⟨rfl, rfl⟩ := same
      simp [isBuilt, built]
    · simp [isBuilt, same]
  · rfl

@[simp] theorem isBuilt_invalidate (keyFilters : KeyFilters) (table probe : TableId)
    (columns : List Nat) :
    (keyFilters.invalidate table).isBuilt probe columns =
      (decide (probe ≠ table) && keyFilters.isBuilt probe columns) := by
  by_cases same : probe = table <;> simp [isBuilt, same]

end KeyFilters
end Ferrite.Storage
