import Ferrite.Server.Alone

/-!
# Declared keys and recorded keys

What a table definition declares unique is enforced only if the catalog records it as a
unique index. A new table's keys are recorded under generated names, and a key whose
name is taken is skipped; a column that is added later has its keys dropped. The
statement records everything it declares exactly if neither of these happens to a key
that nothing else records.
-/

namespace Ferrite.Sql

/-- The column sets a statement declares `PRIMARY KEY` or `UNIQUE`: primary keys first, those
of the table before those of a column. -/
def CreateTable.declaredKeys (create : CreateTable) : List (List String) :=
  (create.constraints.filterMap fun constraint =>
      match constraint with
      | .primaryKey columns => some columns
      | .unique _ => none) ++ create.keysWith .primaryKey ++
    (create.constraints.filterMap fun constraint =>
      match constraint with
      | .primaryKey _ => none
      | .unique columns => some columns) ++ create.keysWith .unique

/-- Number keys: each has the next number, unless it repeats the one before it. -/
def numberKeys : Nat → List (List String) → List (List String × Nat)
  | _, [] => []
  | n, [key] => [(key, n)]
  | n, key :: next :: rest => (key, n) :: numberKeys (if key = next then n else n + 1) (next :: rest)

/-- The keys that are recorded have the numbers of those that are declared. -/
theorem mem_zipIdx_dedup (keys : List (List String)) (n : Nat) (numbered : List String × Nat) :
    numbered ∈ (CreateTable.dedup keys).zipIdx n ↔ numbered ∈ numberKeys n keys := by
  fun_induction CreateTable.dedup keys generalizing n with
  | case1 => simp [numberKeys]
  | case2 key => simp [numberKeys]
  | case3 key rest ih =>
    have first : (key, n) ∈ numberKeys n (key :: rest) := by cases rest <;> simp [numberKeys]
    rw [ih, numberKeys, if_pos rfl, List.mem_cons]
    exact ⟨.inr, fun found => found.elim (fun same => same ▸ first) id⟩
  | case4 key next rest differs ih => rw [List.zipIdx_cons, List.mem_cons, ih, numberKeys, if_neg differs, List.mem_cons]

private theorem length_dedup_le (keys : List (List String)) : (CreateTable.dedup keys).length ≤ keys.length := by
  fun_induction CreateTable.dedup keys with
  | case3 key rest ih => exact ih.trans (Nat.le_succ _)
  | case4 key next rest differs ih => exact Nat.succ_le_succ ih
  | _ => exact le_rfl

def AlterTable.declaredKeys (alter : AlterTable) : List (List String) :=
  if alter.column.constraints.contains .primaryKey || alter.column.constraints.contains .unique then
    [[alter.column.name]]
  else []

end Ferrite.Sql

namespace Ferrite.Catalog.Cache

open Logical

/-- Two lists name the same columns. -/
def SameColumns (left right : List String) : Prop := ∀ column, column ∈ left ↔ column ∈ right

/-- Some unique index of the table has exactly these columns. -/
def Records (cache : Cache) (table : TableId) (key : List String) : Prop :=
  ∃ index ∈ cache.indexesFor table, index.unique = true ∧ SameColumns index.columns key

/-- Under this schema the planner enforces the columns as a unique key of the table. -/
def Enforces (cache : Cache) (schema : Schema) (table : TableId) (key : List String) : Prop :=
  ∃ unique ∈ Exec.uniqueKeysOf schema (cache.indexesFor table),
    ∀ position, position ∈ unique.columns ↔ ∃ column ∈ key, schema.columnIndex column = some position

/-- What is recorded of columns the table has is enforced. -/
theorem Records.enforces {cache : Cache} {table : TableId} {key : List String} (recorded : cache.Records table key)
    {schema : Schema} (known : ∀ column ∈ key, (schema.columnIndex column).isSome = true) (nonempty : key ≠ []) :
    cache.Enforces schema table key := by
  have positions : ∀ names : List String, (∀ column ∈ names, (schema.columnIndex column).isSome = true) →
      ∃ positions, schema.columnIndexes names = some positions ∧
        ∀ position, position ∈ positions ↔ ∃ column ∈ names, schema.columnIndex column = some position := by
    intro names
    induction names with
    | nil => exact fun _ => ⟨[], rfl, by simp⟩
    | cons name names ih =>
      intro known
      obtain ⟨first, isFirst⟩ := Option.isSome_iff_exists.mp (known name List.mem_cons_self)
      obtain ⟨rest, isRest, each⟩ := ih fun column member => known column (List.mem_cons_of_mem _ member)
      refine ⟨first :: rest, ?_, by simp [each, isFirst, eq_comm]⟩
      rw [Schema.columnIndexes] at isRest ⊢
      simp [isFirst, isRest]
  obtain ⟨index, member, unique, same⟩ := recorded
  obtain ⟨found, isFound, each⟩ := positions index.columns fun column isColumn => known column ((same column).mp isColumn)
  obtain ⟨column, isColumn⟩ := List.exists_mem_of_ne_nil key nonempty
  obtain ⟨position, isPosition⟩ := Option.isSome_iff_exists.mp (known column isColumn)
  have isMember : position ∈ found := (each position).mpr ⟨column, (same column).mpr isColumn, isPosition⟩
  refine ⟨⟨index.name, found⟩, List.mem_filterMap.mpr ⟨index, member, ?_⟩, fun position => ?_⟩
  · simp [unique, isFound, List.ne_nil_of_mem isMember]
  · rw [each]
    exact exists_congr fun column => and_congr_left fun _ => same column

/-- The ids the cache knows indexes by have been handed out. -/
structure Below (cache : Cache) : Prop where
  index : ∀ id index, cache.indexes.find? id = some index → id < cache.nextId
  named : ∀ name id, cache.indexByName name = some id → id < cache.nextId

private theorem mem_indexesFor {cache : Cache} {table : TableId} {index : IndexDef} :
    index ∈ cache.indexesFor table ↔ (∃ id, cache.indexes.find? id = some index) ∧ index.table = table := by
  simp only [indexesFor, List.mem_insertionSort, List.mem_filter, List.mem_map, Prod.exists,
    OrderedMap.mem_entries_iff, exists_eq_right, beq_iff_eq]

/-- What `createKey` does to the cache when it succeeds. -/
def recordKey (cache : Cache) (schema name : String) (table : TableId) (columns : List String) : Cache :=
  if (cache.findIndex schema name).isNone then
    cache.takeId.2.insertIndex ⟨cache.nextId, name, table, columns, true⟩ schema
  else cache

section

variable {cache : Cache} {schema name : String} {table : TableId} {columns : List String}

private theorem bump_next {id : TableId} (next : cache.nextId = succId id) : cache.bump id = cache := by
  rw [bump]
  split
  · rw [← next]
  · rfl

private theorem insertIndex_taken : cache.takeId.2.insertIndex ⟨cache.nextId, name, table, columns, true⟩ schema =
    { cache with
      indexByName := fun other => if other = (schema, name) then some cache.nextId else cache.indexByName other
      indexes := cache.indexes.insert cache.nextId ⟨cache.nextId, name, table, columns, true⟩
      nextId := succId cache.nextId } := by
  dsimp only [insertIndex, takeId]
  rw [bump_next rfl]

private theorem recordKey_below (below : cache.Below) (room : cache.nextId + 1 < 2 ^ 32) :
    (cache.recordKey schema name table columns).Below := by
  rw [recordKey]
  split
  · rw [insertIndex_taken]
    have more : succId cache.nextId = cache.nextId + 1 := Nat.mod_eq_of_lt room
    constructor
    · intro id index found
      simp only [OrderedMap.find?_insert] at found
      split at found
      · next same => simp [same, more]
      · exact more ▸ Nat.lt_succ_of_lt (below.index id index found)
    · intro other id found
      dsimp only at found ⊢
      split at found
      · cases found
        simp [more]
      · exact more ▸ Nat.lt_succ_of_lt (below.named other id found)
  · exact below

private theorem recordKey_nextId (room : cache.nextId + 1 < 2 ^ 32) :
    (cache.recordKey schema name table columns).nextId ≤ cache.nextId + 1 := by
  rw [recordKey]
  split
  · rw [insertIndex_taken]
    exact (Nat.mod_eq_of_lt room).le
  · exact Nat.le_succ _

private theorem recordKey_records (below : cache.Below) (owner : TableId) (key : List String) :
    (cache.recordKey schema name table columns).Records owner key ↔ cache.Records owner key ∨
      owner = table ∧ cache.findIndex schema name = none ∧ SameColumns columns key := by
  by_cases free : cache.findIndex schema name = none
  · simp only [recordKey, free, Option.isNone_none, if_true, true_and, insertIndex_taken, Records, mem_indexesFor,
      OrderedMap.find?_insert]
    constructor
    · rintro ⟨index, ⟨⟨id, found⟩, owned⟩, unique, same⟩
      split at found
      · obtain rfl := Option.some.inj found
        exact .inr ⟨owned.symm, same⟩
      · exact .inl ⟨index, ⟨⟨id, found⟩, owned⟩, unique, same⟩
    · rintro (⟨index, ⟨⟨id, found⟩, owned⟩, unique, same⟩ | ⟨rfl, same⟩)
      · have fresh : id ≠ cache.nextId := (below.index id index found).ne
        exact ⟨index, ⟨⟨id, by rw [if_neg fresh]; exact found⟩, owned⟩, unique, same⟩
      · exact ⟨_, ⟨⟨cache.nextId, if_pos rfl⟩, rfl⟩, rfl, same⟩
  · have taken : (cache.findIndex schema name).isNone = false := by
      simpa [Option.isSome_iff_ne_none] using free
    simp [recordKey, taken, free]

/-- Recording a key does not take another name. -/
theorem recordKey_findIndex (below : cache.Below) {other : String} (differs : other ≠ name) :
    (cache.recordKey schema name table columns).findIndex schema other = cache.findIndex schema other := by
  rw [recordKey]
  split
  · simp only [insertIndex_taken, findIndex, Prod.mk.injEq, differs, and_false, if_false]
    cases found : cache.indexByName (schema, other) with
    | none => rfl
    | some id =>
      have fresh : id ≠ cache.nextId := (below.named _ _ found).ne
      simp [fresh]
  · rfl

end

/-- The name of a table's `n`-th key. -/
def keyName (name : String) (n : Nat) : String := s!"{name}_key{n}"

private theorem keyName_injective (name : String) {n m : Nat} (same : keyName name n = keyName name m) : n = m := by
  have digits : (toString n : String) = toString m := by simpa [keyName, String.append_assoc] using same
  have read := congrArg (fun text : String => Numeral.readDigits 10 0 text.toList) digits
  simpa [Nat.toString_eq_repr, Nat.repr, Numeral.readDigits_toDigits] using read

/-- What `createKeys` does to the cache when it succeeds. -/
def recordKeys (schema name : String) (table : TableId) : List (List String × Nat) → Cache → Cache
  | [], cache => cache
  | (columns, n) :: rest, cache =>
    recordKeys schema name table rest (cache.recordKey schema (keyName name n) table columns)

private theorem recordKeys_records {schema name : String} {table : TableId} {keys : List (List String × Nat)}
    {cache : Cache} (below : cache.Below) (room : cache.nextId + keys.length < 2 ^ 32)
    (distinct : (keys.map Prod.snd).Nodup) (owner : TableId) (key : List String) :
    (recordKeys schema name table keys cache).Records owner key ↔ cache.Records owner key ∨
      owner = table ∧ ∃ columns n, (columns, n) ∈ keys ∧
        cache.findIndex schema (keyName name n) = none ∧ SameColumns columns key := by
  induction keys generalizing cache with
  | nil => simp [recordKeys]
  | cons first rest ih =>
    obtain ⟨columns, n⟩ := first
    rw [List.length_cons, ← Nat.add_assoc, Nat.add_right_comm] at room
    rw [List.map_cons, List.nodup_cons] at distinct
    have step : cache.nextId + 1 < 2 ^ 32 := (Nat.le_add_right _ _).trans_lt room
    have more : (cache.recordKey schema (keyName name n) table columns).nextId ≤ cache.nextId + 1 :=
      recordKey_nextId step
    have others : ∀ columns' m, (columns', m) ∈ rest →
        (cache.recordKey schema (keyName name n) table columns).findIndex schema (keyName name m) =
          cache.findIndex schema (keyName name m) := fun columns' m member =>
      recordKey_findIndex below fun same =>
        distinct.1 (keyName_injective name same ▸ List.mem_map.mpr ⟨_, member, rfl⟩)
    rw [recordKeys, ih (recordKey_below below step) ((Nat.add_le_add_right more _).trans_lt room) distinct.2,
      recordKey_records below]
    constructor
    · rintro ((recorded | ⟨owned, free, same⟩) | ⟨owned, columns', m, member, free, same⟩)
      · exact .inl recorded
      · exact .inr ⟨owned, columns, n, List.mem_cons_self, free, same⟩
      · exact .inr ⟨owned, columns', m, List.mem_cons_of_mem _ member, others _ _ member ▸ free, same⟩
    · rintro (recorded | ⟨owned, columns', m, member, free, same⟩)
      · exact .inl (.inl recorded)
      · rcases List.mem_cons.mp member with here | later
        · obtain ⟨rfl, rfl⟩ := Prod.mk.inj here
          exact .inl (.inr ⟨owned, free, same⟩)
        · exact .inr ⟨owned, columns', m, later, (others _ _ later).trans free, same⟩

end Ferrite.Catalog.Cache

namespace Ferrite.Server

open Logical Catalog Sql Exec
open Logical.Prog (Keeps Only keeps_pure keeps_ask_bind keeps_ofExcept keeps_getState
  keeps_setState only_ofExcept)
open Storage (Hasher)
open Catalog.Cache (keyName SameColumns recordKeys)

section

variable {hasher : Hasher} {txn : TxnId} {db : Database} {state : SessionState}

private theorem spares_recordTable (id : TableId) (schema name : String) :
    (recordTable txn id schema name).Only SparesCache := only_insertUnique rfl

private theorem spares_recordColumn (formats : TextFormats) (id : TableId) (position : Nat) (column : ColumnDef) :
    (recordColumn formats txn id position column).Only SparesCache :=
  (only_ofExcept _).bind fun _ => (only_ofExcept _).bind fun _ =>
    (only_insertUnique rfl).bind fun _ => trivial

private theorem spares_recordColumns (formats : TextFormats) (id : TableId) (columns : List (ColumnDef × Nat)) :
    (recordColumns formats txn id columns).Only SparesCache := by
  induction columns with
  | nil => trivial
  | cons column rest ih => exact (spares_recordColumn formats _ _ _).bind fun _ => ih

private theorem spares_recordIndexColumns (index : IndexDef) (columns : List (String × Nat)) :
    (recordIndexColumns txn index columns).Only SparesCache := by
  induction columns with
  | nil => trivial
  | cons column rest ih => exact (only_ofExcept _).bind fun _ => (only_insertUnique rfl).bind fun _ => ih

private theorem reserveId_alone (db : Database) (state : SessionState) (schema name : String) :
    (Action.attempted (.reserveId schema name)).Keeps (alone hasher)
      (fun after _ result => ∀ id, result = .ok id → id = db.cache.nextId ∧
        after.cache = { db.cache with nextId := Cache.succId db.cache.nextId }) db state := by
  refine keeps_ask_bind trivial ?_
  rintro answer after ⟨moment, answered⟩
  have reserved : db.answer hasher moment (.reserveId schema name) =
      ((db.cache.reserveId schema name).1, { db with cache := (db.cache.reserveId schema name).2 }) := rfl
  rw [reserved] at answered
  obtain ⟨rfl, rfl⟩ := Prod.mk.inj answered
  refine keeps_ofExcept fun id taken => ?_
  by_cases known : (db.cache.byName (schema, name)).isSome = true
  · simp [Cache.reserveId, known] at taken
  · simp only [Cache.reserveId, known] at taken ⊢
    exact ⟨(Except.ok.inj taken).symm, rfl⟩

/-- A new table takes the next id and leaves the indexes as they are. -/
theorem createTableIn_alone (formats : TextFormats) (schema name : String) (columns : Schema) :
    (createTableIn formats txn schema name columns).Keeps (alone hasher)
      (fun after _ result => ∀ id, result = .ok id → id = db.cache.nextId ∧
        after.cache = ({ db.cache with nextId := Cache.succId db.cache.nextId }).insertTable
          ⟨id, schema, name, columns⟩) db state := by
  refine (spares_cache (only_ofExcept _)).bind (fun _ _ _ _ => nofun) fun first middle _ spared => ?_
  refine (reserveId_alone first middle schema name).bind (fun _ _ _ _ => nofun) fun second _ id reserved => ?_
  obtain ⟨rfl, same⟩ := reserved id rfl
  rw [spared.1] at same ⊢
  have creates : (Action.createTable txn db.cache.nextId).Only SparesCache := only_unitCall rfl
  refine (spares_cache creates).bind (fun _ _ _ _ => nofun) fun third _ _ spared => ?_
  refine (spares_cache (spares_recordTable _ _ _)).bind (fun _ _ _ _ => nofun) fun fourth _ _ spared' => ?_
  refine (spares_cache (spares_recordColumns formats _ _)).bind (fun _ _ _ _ => nofun) fun fifth _ _ spared'' => ?_
  refine keeps_ask_bind trivial ?_
  rintro answer after ⟨moment, answered⟩
  obtain ⟨-, rfl⟩ := Prod.mk.inj answered
  refine keeps_pure fun id isId => ⟨(Except.ok.inj isId).symm, ?_⟩
  obtain rfl := Except.ok.inj isId
  simp only [spared''.1, spared'.1, spared.1, same]

private theorem validateIndex_schema {cache : Cache} {name : String} {table : TableId} {columns : List String}
    {schema : String} (valid : validateIndex cache name table columns = .ok schema) :
    ∃ entry, cache.byId table = some entry ∧ entry.schema = schema := by
  rw [validateIndex] at valid
  split at valid
  next => cases valid
  next entry found =>
    refine ⟨entry, found, ?_⟩
    split at valid
    · cases valid
    split at valid
    · cases valid
    split at valid
    · cases valid
    · exact Except.ok.inj valid

/-- A new index takes the next id and lives in its table's schema. -/
theorem createIndexIn_alone (name : String) (table : TableId) (columns : List String) :
    (createIndexIn txn name table columns true).Keeps (alone hasher)
      (fun after _ result => ∀ id, result = .ok id → ∃ entry, db.cache.byId table = some entry ∧
        after.cache = db.cache.takeId.2.insertIndex ⟨db.cache.nextId, name, table, columns, true⟩
          entry.schema) db state := by
  rw [createIndexIn]
  split
  · exact fun _ failed => by cases failed
  split
  · exact fun _ failed => by cases failed
  refine readCache_bind ?_
  cases valid : validateIndex db.cache name table columns with
  | error e => exact fun _ failed => by cases failed
  | ok schema =>
    obtain ⟨entry, found, rfl⟩ := validateIndex_schema valid
    refine keeps_ask_bind trivial ?_
    rintro id taken ⟨moment, answered⟩
    obtain ⟨rfl, rfl⟩ := Prod.mk.inj answered
    refine (spares_cache (spares_recordIndexColumns _ _)).bind (fun _ _ _ _ _ failed => by cases failed)
      fun recorded _ _ spared => keeps_ask_bind trivial ?_
    rintro answer after ⟨moment, answered⟩
    obtain ⟨-, rfl⟩ := Prod.mk.inj answered
    refine keeps_pure fun _ _ => ⟨entry, found, ?_⟩
    rw [spared.1]
    rfl

private theorem recordKey_byId (cache : Cache) (schema name : String) (table : TableId) (columns : List String) :
    (cache.recordKey schema name table columns).byId = cache.byId := by
  rw [Cache.recordKey]
  split
  · rw [Cache.insertIndex_taken]
  · rfl

private theorem createKey_alone {entry : Entry} {id : TableId} (found : db.cache.byId id = some entry)
    (index : String) (columns : List String) :
    (Inner.createKey txn entry.schema id index columns).Keeps (alone hasher)
      (fun after _ result => ∀ value, result = .ok value →
        after.cache = db.cache.recordKey entry.schema index id columns) db state := by
  refine readCache_bind ?_
  by_cases free : (db.cache.findIndex entry.schema index).isNone = true
  · rw [if_pos free, Cache.recordKey, if_pos free]
    refine (createIndexIn_alone index id columns).bind (fun _ _ _ _ => nofun)
      fun _ _ made recorded => keeps_pure fun _ _ => ?_
    obtain ⟨owner, isOwner, same⟩ := recorded made rfl
    obtain rfl := Option.some.inj (found.symm.trans isOwner)
    exact same
  · rw [if_neg free, Cache.recordKey, if_neg free]
    exact keeps_pure fun _ _ => rfl

private theorem createKeys_alone {entry : Entry} {id : TableId} {keys : List (List String × Nat)}
    (found : db.cache.byId id = some entry) (name : String) :
    (Inner.createKeys txn entry.schema name id keys).Keeps (alone hasher)
      (fun after _ result => ∀ value, result = .ok value →
        after.cache = recordKeys entry.schema name id keys db.cache) db state := by
  induction keys generalizing db state with
  | nil => exact fun _ _ => rfl
  | cons key rest ih =>
    refine (createKey_alone found (keyName name key.2) key.1).bind (fun _ _ _ _ => nofun)
      fun after middle _ recorded => ?_
    have same := recorded _ rfl
    have here : after.cache.byId id = some entry := by rw [same, recordKey_byId, found]
    refine (ih here).mono fun last _ _ holds value isOk => ?_
    rw [holds value isOk, same]
    rfl

end

/-! ## Statements -/

/-- What has to be free, or recorded already, for a statement to record all it declares. -/
def keysFit (cache : Cache) : Statement → Prop
  | .createTable create => ∀ key ∈ create.declaredKeys,
      cache.Records cache.nextId key ∨ ∃ columns n, (columns, n) ∈ numberKeys 0 create.declaredKeys ∧
        cache.findIndex (create.name.split defaultNamespace).1
          (keyName (create.name.split defaultNamespace).2 n) = none ∧ SameColumns columns key
  | .alterTable alter => ∀ key ∈ alter.declaredKeys, ∀ id,
      cache.tableId (alter.name.split defaultNamespace).1 (alter.name.split defaultNamespace).2 = some id →
        cache.Records id key
  | _ => True

/-- The column sets a statement declares unique. -/
def declaredKeys : Statement → List (List String)
  | .createTable create => create.declaredKeys
  | .alterTable alter => alter.declaredKeys
  | _ => []

/-- The statement has made the table, or added the column to it. -/
def Makes (before after : Cache) (id : TableId) : Statement → Prop
  | .createTable create =>
    let (namespaceName, name) := create.name.split defaultNamespace
    before.tableId namespaceName name = none ∧ after.tableId namespaceName name = some id
  | .alterTable alter =>
    let (namespaceName, name) := alter.name.split defaultNamespace
    before.tableId namespaceName name = some id ∧
      (∀ schema, before.tableSchema id = .ok schema → schema.columnIndex alter.column.name = none) ∧
      ∃ schema, after.tableSchema id = .ok schema ∧ (schema.columnIndex alter.column.name).isSome
  | _ => False

/-- The statement, if it has made what it was to make, has recorded all it declares
exactly if the keys fit. -/
def Accounts (before : Cache) (statement : Statement) (after : Cache) : Prop :=
  ∀ id, Makes before after id statement →
    ((∀ key ∈ declaredKeys statement, after.Records id key) ↔ keysFit before statement)

section

variable {hasher : Hasher} {inner : Inner} {txn : TxnId} {db : Database} {state : SessionState}

/-- The cache of a database in which a table has just been made. -/
theorem insertTable_new (cache : Cache) (entry : Entry) (isNew : entry.id = cache.nextId) :
    ({ cache with nextId := Cache.succId cache.nextId }).insertTable entry =
      { cache with
        byId := fun id => if id = entry.id then some entry else cache.byId id
        byName := fun name => if name = (entry.schema, entry.name) then some entry.id else cache.byName name
        nextId := Cache.succId cache.nextId } := by
  dsimp only [Cache.insertTable]
  rw [Cache.bump_next (by rw [isNew])]

private theorem recordKeys_byName (schema name : String) (table : TableId) (keys : List (List String × Nat))
    (cache : Cache) : (recordKeys schema name table keys cache).byName = cache.byName := by
  induction keys generalizing cache with
  | nil => rfl
  | cons key rest ih =>
    rw [recordKeys, ih, Cache.recordKey]
    split
    · rw [Cache.insertIndex_taken]
    · rfl

/-- A new table's keys, once the table itself is in the cache. -/
theorem recordKeys_accounts (create : CreateTable) (below : db.cache.Below)
    (room : db.cache.nextId + 1 + create.uniqueKeys.length < 2 ^ 32) {entry : Entry}
    (isNew : entry.id = db.cache.nextId) (named : create.name.split defaultNamespace = (entry.schema, entry.name)) :
    Accounts db.cache (.createTable create) (recordKeys entry.schema entry.name entry.id create.uniqueKeys.zipIdx
        (({ db.cache with nextId := Cache.succId db.cache.nextId }).insertTable entry)) := by
  have next : Cache.succId db.cache.nextId = db.cache.nextId + 1 :=
    Nat.mod_eq_of_lt ((Nat.le_add_right _ _).trans_lt room)
  intro id makes
  obtain ⟨-, made⟩ : _ ∧ _ := by simpa only [Makes, named] using makes
  rw [insertTable_new _ _ isNew] at made ⊢
  rw [Cache.tableId, recordKeys_byName] at made
  obtain rfl : entry.id = id := by simpa using made
  have distinct : (create.uniqueKeys.zipIdx.map Prod.snd).Nodup := by
    rw [List.zipIdx_map_snd]
    exact List.nodup_range'
  have later : Cache.Below { db.cache with
      byId := fun id => if id = entry.id then some entry else db.cache.byId id
      byName := fun name => if name = (entry.schema, entry.name) then some entry.id else db.cache.byName name
      nextId := Cache.succId db.cache.nextId } :=
    ⟨fun id index found => next ▸ Nat.lt_succ_of_lt (below.index id index found),
      fun name id found => next ▸ Nat.lt_succ_of_lt (below.named name id found)⟩
  have numbers (numbered : List String × Nat) :
      numbered ∈ create.uniqueKeys.zipIdx ↔ numbered ∈ numberKeys 0 create.declaredKeys :=
    mem_zipIdx_dedup create.declaredKeys 0 numbered
  refine forall₂_congr fun key _ => ?_
  rw [Cache.recordKeys_records later (by simpa [next] using room) distinct]
  rw [named, ← isNew]
  simp only [numbers]
  exact or_congr Iff.rfl (and_iff_right trivial)

private theorem createTable_accounts (create : CreateTable) (below : db.cache.Below)
    (room : db.cache.nextId + 1 + create.uniqueKeys.length < 2 ^ 32) :
    (inner.createTable create txn).Keeps (alone hasher) (fun after _ result => ∀ value, result = .ok value →
        Accounts db.cache (.createTable create) after.cache) db state := by
  rw [Inner.createTable]
  refine readCache_bind ?_
  split
  next known =>
    have present : ∀ after, Accounts db.cache (.createTable create) after := by
      intro after id makes
      rw [makes.1] at known
      cases known
    split
    · exact keeps_pure fun _ _ => present _
    · exact nofun
  next unknown =>
    refine (spares_cache (only_ofExcept _)).bind (fun _ _ _ _ => nofun) fun first _ schema spared => ?_
    refine (spares_cache (only_ofExcept _)).bind (fun _ _ _ _ => nofun) fun second _ checked spared' => ?_
    refine (createTableIn_alone inner.formats _ _ checked).bind (fun _ _ _ _ => nofun) fun third _ id made => ?_
    obtain ⟨isNext, made⟩ := made id rfl
    rw [spared'.1, spared.1] at isNext made
    have found : third.cache.byId id = some ⟨id, (create.name.split defaultNamespace).1,
        (create.name.split defaultNamespace).2, checked⟩ := by
      rw [made]
      exact if_pos rfl
    refine (createKeys_alone found _).bind (fun _ _ _ _ => nofun) fun after _ _ recorded => keeps_pure ?_
    rw [recorded _ rfl, made]
    exact fun _ _ => recordKeys_accounts create below room isNext rfl

private theorem Records.congr {left right : Cache} (same : left.indexes = right.indexes) (table : TableId)
    (key : List String) : left.Records table key ↔ right.Records table key := by
  rw [Cache.Records, Cache.Records, Cache.indexesFor, Cache.indexesFor, same]

private theorem pushColumn_indexes (cache : Cache) (table : TableId) (column : ColumnDef) :
    (cache.pushColumn table column).indexes = cache.indexes := by
  rw [Cache.pushColumn]
  split <;> rfl

/-- The program leaves the indexes of the cache as they are if it succeeds. -/
def SparesIndexes {α : Type} (before : Cache) (after : Database) (_ : SessionState)
    (result : Except FerriteError α) : Prop :=
  ∀ value, result = .ok value → after.cache.indexes = before.indexes

private theorem addColumnIn_spares (formats : TextFormats) (table : TableId) (column : ColumnDef) :
    (addColumnIn formats txn table column).Keeps (alone hasher) (SparesIndexes db.cache) db state := by
  rw [addColumnIn]
  split
  · exact fun _ failed => by cases failed
  split
  · exact fun _ failed => by cases failed
  refine readCache_bind ?_
  refine (spares_cache (only_ofExcept _)).bind (fun _ _ _ _ _ failed => by cases failed) fun first _ position spared => ?_
  refine (spares_cache (spares_recordColumn formats _ _ _)).bind (fun _ _ _ _ _ failed => by cases failed)
    fun second _ _ spared' => ?_
  refine ⟨trivial, ?_⟩
  rintro answer after ⟨moment, answered⟩
  obtain ⟨-, rfl⟩ := Prod.mk.inj answered
  intro _ _
  rw [pushColumn_indexes, spared'.1, spared.1]

private theorem addColumn_spares (alter : AlterTable) (namespaceName name : String) (id : TableId) :
    (inner.addColumn alter txn namespaceName name id).Keeps (alone hasher) (SparesIndexes db.cache) db state := by
  have presence : (Inner.columnPresent alter id).Only SparesCache := by
    rw [Inner.columnPresent]
    split
    · exact (Prog.only_ask rfl).bind fun _ => (only_ofExcept _).bind fun _ => trivial
    · trivial
  have checks : ∀ column, (Inner.checkAddable txn id namespaceName name column).Only SparesCache := by
    intro column
    rw [Inner.checkAddable]
    split
    · trivial
    · refine (only_attempted rfl).bind fun _ => (only_attempted rfl).attempt.bind fun found => ?_
      split <;> trivial
  refine (spares_cache presence).bind (fun _ _ _ _ _ failed => by cases failed) fun first _ present spared => ?_
  split
  · exact keeps_pure fun _ _ => by rw [spared.1]
  · refine (spares_cache (only_ofExcept _)).bind (fun _ _ _ _ _ failed => by cases failed) fun second _ added spared' => ?_
    refine (spares_cache (checks added)).bind (fun _ _ _ _ _ failed => by cases failed) fun third _ _ spared'' => ?_
    refine (addColumnIn_spares inner.formats id added).bind (fun _ _ _ _ _ failed => by cases failed)
      fun last _ _ left => keeps_pure fun _ _ => ?_
    rw [left _ rfl, spared''.1, spared'.1, spared.1]

/-- Adding a column records nothing: the keys it declares have to be there already. -/
theorem alterTable_accounts (alter : AlterTable) : (inner.alterTable alter txn).Keeps (alone hasher)
      (fun after _ result => ∀ value, result = .ok value →
        Accounts db.cache (.alterTable alter) after.cache) db state := by
  have untouched : ∀ after : Cache, after.indexes = db.cache.indexes →
      Accounts db.cache (.alterTable alter) after := by
    intro after same id makes
    refine forall₂_congr fun key _ => ?_
    rw [Records.congr same]
    exact ⟨fun recorded other isOther => Option.some.inj (makes.1.symm.trans isOther) ▸ recorded,
      fun fits => fits id makes.1⟩
  rw [Inner.alterTable]
  refine readCache_bind ?_
  split
  next unknown =>
    split
    · exact keeps_pure fun _ _ => untouched _ rfl
    · exact nofun
  next id known => exact (addColumn_spares alter _ _ id).mono fun _ _ _ left _ isOk => untouched _ (left _ isOk)

/-- How many object ids a statement takes at most. -/
def idsTaken : Statement → Nat
  | .createTable create => 1 + create.declaredKeys.length
  | _ => 0

/-- For every catalog whose next id is beyond those in use and does not run out: a
`CREATE TABLE` or `ALTER TABLE ADD COLUMN` that succeeds, having made the table or the
column, leaves every column set it declares unique as the column set of a unique index of
that table exactly if each was recorded there already or is the key of a generated name
that was free. What is recorded is enforced by the planner. -/
theorem declared_keys_are_recorded_iff (inner : Inner) (hasher : Hasher) (caller : Identity)
    (statement : Statement) (db : Database) (state : SessionState) (below : db.cache.Below)
    (room : db.cache.nextId + idsTaken statement < 2 ^ 32) :
    (inner.dispatch caller statement).Keeps (alone hasher)
      (fun after _ result => ∀ value, result = .ok value → ∀ id, Makes db.cache after.cache id statement →
        ((∀ key ∈ declaredKeys statement, after.cache.Records id key) ↔ keysFit db.cache statement) ∧
          ∀ key ∈ declaredKeys statement, after.cache.Records id key → ∀ schema,
            after.cache.tableSchema id = .ok schema → key ≠ [] →
            (∀ column ∈ key, (schema.columnIndex column).isSome = true) → after.cache.Enforces schema id key)
      db state := by
  have enforced (after : Cache) (id : TableId) : ∀ key ∈ declaredKeys statement, after.Records id key → ∀ schema,
      after.tableSchema id = .ok schema → key ≠ [] →
      (∀ column ∈ key, (schema.columnIndex column).isSome = true) → after.Enforces schema id key :=
    fun _ _ recorded _ _ nonempty known => recorded.enforces known nonempty
  suffices accounts : (inner.dispatch caller statement).Keeps (alone hasher) (fun after _ result =>
      ∀ value, result = .ok value → Accounts db.cache statement after.cache) db state from
    accounts.mono fun after _ _ accounted value isOk id makes =>
      ⟨accounted value isOk id makes, enforced after.cache id⟩
  cases statement with
  | createTable create =>
    refine ddl_alone caller (.createTable create) fun txn before middle same => ?_
    rw [← same] at below room ⊢
    have fewer := length_dedup_le create.declaredKeys
    refine createTable_accounts create below ?_
    change _ + (1 + create.declaredKeys.length) < 2 ^ 32 at room
    change _ + (CreateTable.dedup create.declaredKeys).length < _
    omega
  | alterTable alter =>
    refine ddl_alone caller (.alterTable alter) fun txn before middle same => ?_
    rw [← same]
    exact alterTable_accounts alter
  | _ => exact (alone_any _).mono fun _ _ _ _ _ _ _ makes => makes.elim

end

/-- `CREATE TABLE name (a INT UNIQUE)`. -/
def createUnique (name : String) : Statement := .createTable ⟨false, ⟨[name]⟩, [⟨"a", .int4, [.unique]⟩], []⟩

theorem declared_keys_are_recorded_for_a_unique_column :
    ∃ value last after, Database.perform ⟨(Database.create .decimal (fun _ => 0) 16).storage, .empty⟩
        (fun _ => 0) (openServer.dispatch 0 (createUnique "t")) = .ok (.ok value, last, after) ∧
      after.cache.Records 16 ["a"] ∧
      ∀ schema, after.cache.tableSchema 16 = .ok schema → (schema.columnIndex "a").isSome = true →
        after.cache.Enforces schema 16 ["a"] := by
  have kept := declared_keys_are_recorded_iff openServer (fun _ => 0) 0 (createUnique "t")
    ⟨(Database.create .decimal (fun _ => 0) 16).storage, .empty⟩ .default ⟨nofun, nofun⟩ (by decide)
  have fits : keysFit .empty (createUnique "t") := by
    intro key declared
    obtain rfl : key = ["a"] := by simpa [CreateTable.declaredKeys, CreateTable.keysWith] using declared
    exact .inr ⟨["a"], 0, by decide, rfl, fun _ => Iff.rfl⟩
  have ran : ((Database.perform ⟨(Database.create .decimal (fun _ => 0) 16).storage, .empty⟩ (fun _ => 0)
      (openServer.dispatch 0 (createUnique "t"))).toOption.map fun made =>
        (made.1.isOk, made.2.2.cache.tableId "public" "t")) = some (true, some 16) := by decide +kernel
  rcases performed : Database.perform ⟨(Database.create .decimal (fun _ => 0) 16).storage, .empty⟩
    (fun _ => 0) (openServer.dispatch 0 (createUnique "t")) with _ | ⟨_ | value, last, after⟩
  · rw [performed] at ran
    cases ran
  · rw [performed] at ran
    cases ran
  · rw [performed] at ran
    have made : after.cache.tableId "public" "t" = some 16 := (Prod.mk.inj (Option.some.inj ran)).2
    obtain ⟨recorded, enforced⟩ := alone_performed kept performed value rfl 16 ⟨rfl, made⟩
    have here := recorded.mpr fits ["a"] (by decide)
    exact ⟨value, last, after, rfl, here, fun schema isSchema known =>
      enforced ["a"] (by decide) here schema isSchema (by simp) (by simpa using known)⟩

/-- An index of another table that has the generated name, and a column that is added:
the keys are declared and not recorded, and a duplicate is stored. -/
theorem declared_keys_are_lost :
    let run := Machine.run (System.step openServer fun _ => 0) (freshSystem fun _ => 0)
      (send 0 [createOfInt "a"] 11 ++ send 0 [.createIndex ⟨false, false, "b_key0", ⟨["a"]⟩, ["a"]⟩] 12 ++
        send 0 [createUnique "b"] 12 ++ send 0 [insertInt "b" 7] 20 ++ send 0 [insertInt "b" 7] 20 ++
        send 0 [.alterTable ⟨false, ⟨["a"]⟩, false, ⟨"b", .int4, [.unique]⟩⟩] 12)
    run.1.flatten =
      [.commandComplete "CREATE TABLE", .readyForQuery .idle, .commandComplete "CREATE INDEX", .readyForQuery .idle,
        .commandComplete "CREATE TABLE", .readyForQuery .idle, .commandComplete "INSERT 0 1", .readyForQuery .idle,
        .commandComplete "INSERT 0 1", .readyForQuery .idle, .commandComplete "ALTER TABLE", .readyForQuery .idle] ∧
    (run.2.database.cache.tableId "public" "b").map run.2.database.cache.indexesFor = some [] ∧
    ((run.2.database.cache.tableId "public" "a").map fun id =>
      (run.2.database.cache.indexesFor id).filter IndexDef.unique) = some [] := by
  decide +kernel

end Ferrite.Server
