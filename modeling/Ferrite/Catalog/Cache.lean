import Ferrite.Common.Schema
import Ferrite.Logical.OrderedMap
import Mathlib.Data.List.Sort
import Mathlib.Data.String.Basic

/-!
# The in-memory index of the catalog

The `Cache` of `ferrite-catalog/src/system.rs`: tables and indexes by id and by
name, and the next free object id. It is shared by all sessions behind one lock;
each definition here is one critical section. Ids are `u32`. A map nobody
iterates over is a function; `indexes` is iterated over, and is an ordered map.
-/

namespace Ferrite.Catalog

open Logical

def tablesTableId : TableId := 1
def columnsTableId : TableId := 2
def indexesTableId : TableId := 3

/-- Schema the catalog's own tables live in. -/
def catalogSchema : String := "ferrite_catalog"

/-- Ids below this are reserved for catalog tables. -/
def firstUserTableId : TableId := 16

/-- Whether an id falls in the range reserved for the catalog's own objects. -/
def isSystemTable (table : TableId) : Bool := decide (table < firstUserTableId)

def catalogError (message : String) : FerriteError := .storage s!"catalog: {message}"

/-- A table as the cache knows it. -/
structure Entry where
  id : TableId
  schema : String
  name : String
  columns : Schema
deriving DecidableEq

/-- A name within a schema. -/
abbrev QualifiedName := String × String

structure Cache where
  byId : TableId → Option Entry
  byName : QualifiedName → Option TableId
  indexes : OrderedMap IndexId IndexDef
  indexByName : QualifiedName → Option IndexId
  nextId : TableId

namespace Cache

def empty : Cache where
  byId := fun _ => none
  byName := fun _ => none
  indexes := .empty
  indexByName := fun _ => none
  nextId := firstUserTableId

/-- The object id after `id`; `u32` arithmetic wraps. -/
def succId (id : TableId) : TableId := (id + 1) % 2 ^ 32

def bump (cache : Cache) (id : TableId) : Cache :=
  if cache.nextId ≤ id then { cache with nextId := succId id } else cache

def insertTable (cache : Cache) (entry : Entry) : Cache :=
  let named :=
    { cache with
      byName := fun name => if name = (entry.schema, entry.name) then some entry.id
        else cache.byName name }
  let bumped := named.bump entry.id
  { bumped with byId := fun id => if id = entry.id then some entry else bumped.byId id }

/-- The schema a table's indexes live in; unknown tables have none. -/
def schemaOf (cache : Cache) (table : TableId) : String :=
  ((cache.byId table).map Entry.schema).getD ""

def insertIndex (cache : Cache) (index : IndexDef) (schema : String) : Cache :=
  let named :=
    { cache with
      indexByName := fun name => if name = (schema, index.name) then some index.id
        else cache.indexByName name }
  let bumped := named.bump index.id
  { bumped with indexes := bumped.indexes.insert index.id index }

def removeIndex (cache : Cache) (id : IndexId) : Cache :=
  match cache.indexes.find? id with
  | none => cache
  | some index =>
    { cache with
      indexes := cache.indexes.erase id
      indexByName := fun name => if name = (cache.schemaOf index.table, index.name) then none
        else cache.indexByName name }

/-- The table leaves first, so that the names of its indexes are looked up in no schema. -/
def removeTable (cache : Cache) (id : TableId) : Cache :=
  match cache.byId id with
  | none => cache
  | some entry =>
    let without :=
      { cache with
        byId := fun other => if other = id then none else cache.byId other
        byName := fun name => if name = (entry.schema, entry.name) then none
          else cache.byName name }
    let doomed := (without.indexes.entries.filter fun index => index.2.table == id).map Prod.fst
    doomed.foldl removeIndex without

/-- Append a column to a table, if the cache holds it. -/
def pushColumn (cache : Cache) (table : TableId) (column : ColumnDef) : Cache :=
  match cache.byId table with
  | none => cache
  | some entry =>
    { cache with
      byId := fun id => if id = table then some { entry with columns := ⟨entry.columns.columns ++ [column]⟩ }
        else cache.byId id }

/-- Claim the next object id for a table of this name. -/
def reserveId (cache : Cache) (schema name : String) : Except FerriteError TableId × Cache :=
  if (cache.byName (schema, name)).isSome then
    (.error (catalogError s!"table \x60{schema}.{name}\x60 already exists"), cache)
  else (.ok cache.nextId, { cache with nextId := succId cache.nextId })

/-- Claim the next object id for an index. -/
def takeId (cache : Cache) : IndexId × Cache := (cache.nextId, { cache with nextId := succId cache.nextId })

/-- The cache `reload` builds from what it read. -/
def rebuild (tables : List Entry) (indexes : List IndexDef) : Cache :=
  let withTables := tables.foldl insertTable empty
  indexes.foldl (fun cache index => cache.insertIndex index (cache.schemaOf index.table)) withTables

def tableId (cache : Cache) (schema name : String) : Option TableId := cache.byName (schema, name)

def tableSchema (cache : Cache) (table : TableId) : Except FerriteError Schema :=
  match cache.byId table with
  | some entry => .ok entry.columns
  | none => .error (.tableNotFound (toString table))

/-- Look an index up by name. -/
def findIndex (cache : Cache) (schema name : String) : Option IndexDef :=
  (cache.indexByName (schema, name)).bind cache.indexes.find?

/-- Every index on a table, sorted by name. -/
def indexesFor (cache : Cache) (table : TableId) : List IndexDef :=
  ((cache.indexes.entries.map Prod.snd).filter fun index => index.table == table).insertionSort
    fun left right => left.name ≤ right.name

end Cache
end Ferrite.Catalog
