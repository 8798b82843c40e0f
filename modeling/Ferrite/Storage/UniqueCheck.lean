import Ferrite.Storage.Holding

/-!
# The unique check with and without its filter

`enforceByWalk` is the check that always walks the table. As long as the filters
cover every value that may turn out live, the filtered check gives the same answer
and leaves the filters covering.
-/

namespace Ferrite.Storage.Engine

open Logical KeyFilters

variable {engine : Engine} {hasher : Hasher} {txn : TxnId} {table : TableId} {header : HeaderId}
  {row : Row} {exclude : Option RowId} {unique : List UniqueKey}

/-- The check as it would be without filters. -/
def enforceByWalk (engine : Engine) (txn : TxnId) (header : HeaderId) (row : Row)
    (exclude : Option RowId) : List UniqueKey → Except FerriteError Unit
  | [] => .ok ()
  | constraint :: rest =>
    match constraint.extract row with
    | none => enforceByWalk engine txn header row exclude rest
    | some wanted =>
      if engine.walkClashes txn header constraint wanted exclude then
        .error (constraint.violation wanted)
      else enforceByWalk engine txn header row exclude rest

/-- The filters rule out no key of a value that may turn out live in the table. -/
def Covers (hasher : Hasher) (engine : Engine) (table : TableId) (header : HeaderId)
    (filters : KeyFilters) : Prop :=
  ∀ columns rowId value key, engine.MayHold (engine.loadChain header rowId) value →
    extractColumns value columns = some key → filters.mayContain table columns (hashKey hasher key) = true

/-- What a check relies on besides its filters: a filter it builds now sees every
value that may turn out live, and two keys that compare equal are the same bits. -/
structure CheckReady (engine : Engine) (filters : KeyFilters) (txn : TxnId) (table : TableId)
    (header : HeaderId) (row : Row) (unique : List UniqueKey) : Prop where
  buildSees : ∀ constraint ∈ unique, (constraint.extract row).isSome = true →
    filters.isBuilt table constraint.columns = false →
      ∀ rowId value, engine.MayHold (engine.loadChain header rowId) value → (constraint.extract value).isSome = true →
          engine.constraintVersion txn (engine.loadChain header rowId) = some value
  sameBits : ∀ constraint ∈ unique, ∀ wanted, constraint.extract row = some wanted →
    ∀ rowId value key, engine.MayHold (engine.loadChain header rowId) value →
      constraint.extract value = some key → keyEq key wanted = true → key = wanted

variable {constraint : UniqueKey} {filters : KeyFilters}

/-- A row is met by the walk exactly when the tree holds its chain. -/
theorem mem_walkForConstraints {rowId : RowId} {value : Row} : (rowId, value) ∈ engine.walkForConstraints txn header ↔
      engine.constraintVersion txn (engine.loadChain header rowId) = some value := by
  simp only [walkForConstraints, List.mem_filterMap]
  constructor
  · rintro ⟨⟨key, chain⟩, member, found⟩
    obtain ⟨stored, isStored, pair⟩ := Option.map_eq_some_iff.mp found
    obtain ⟨rfl, rfl⟩ := Prod.mk.inj pair
    have bound := (OrderedMap.mem_entries_iff _).mp member
    simpa [loadChain, bound] using isStored
  · intro found
    cases bound : (engine.rowsOf header).find? rowId with
    | none => simp [loadChain, bound, constraintVersion] at found
    | some chain =>
      refine ⟨(rowId, chain), (OrderedMap.mem_entries_iff _).mpr bound, ?_⟩
      simp only [loadChain, bound, Option.getD_some] at found
      simp [found]

/-- The walk clashes exactly when another row's reckoned value carries the key. -/
theorem walkClashes_iff {wanted : List Value} : engine.walkClashes txn header constraint wanted exclude = true ↔
      ∃ rowId value key, some rowId ≠ exclude ∧
        engine.constraintVersion txn (engine.loadChain header rowId) = some value ∧
        constraint.extract value = some key ∧ keyEq key wanted = true := by
  rw [walkClashes, List.any_eq_true]
  constructor
  · rintro ⟨⟨rowId, value⟩, member, matched⟩
    cases extracted : constraint.extract value with
    | none => simp [extracted] at matched
    | some key =>
      have both : some rowId ≠ exclude ∧ keyEq key wanted = true := by simpa [extracted] using matched
      exact ⟨rowId, value, key, both.1, mem_walkForConstraints.mp member, extracted, both.2⟩
  · rintro ⟨rowId, value, key, other, found, extracted, equal⟩
    exact ⟨(rowId, value), mem_walkForConstraints.mpr found, by simp [extracted, equal, other]⟩

private theorem CheckReady.tail (ready : CheckReady engine filters txn table header row (constraint :: unique)) :
    CheckReady engine filters txn table header row unique :=
  ⟨fun other member => ready.buildSees other (List.mem_cons_of_mem _ member),
    fun other member => ready.sameBits other (List.mem_cons_of_mem _ member)⟩

/-- More built filters ask for less. -/
theorem CheckReady.of_built {filters' : KeyFilters} (ready : CheckReady engine filters txn table header row unique)
    (built : ∀ columns, filters.isBuilt table columns = true →
      filters'.isBuilt table columns = true) : CheckReady engine filters' txn table header row unique := by
  refine ⟨fun constraint member carries notBuilt => ready.buildSees constraint member carries ?_, ready.sameBits⟩
  cases before : filters.isBuilt table constraint.columns with
  | false => rfl
  | true => simp [built _ before] at notBuilt

/-! ## The filters play no part in the walk -/

private theorem constraintVersion_withFilters (engine : Engine) (filters : KeyFilters) (txn : TxnId)
    (chain : List (Version Row)) : constraintVersion { engine with filters := filters } txn chain =
      engine.constraintVersion txn chain := by
  induction chain with
  | nil => rfl
  | cons version older ih =>
    rw [constraintVersion, constraintVersion, ih]
    rfl

private theorem walkForConstraints_withFilters (engine : Engine) (filters : KeyFilters) (txn : TxnId)
    (header : HeaderId) :
    walkForConstraints { engine with filters := filters } txn header = engine.walkForConstraints txn header := by
  simp only [walkForConstraints, constraintVersion_withFilters]
  rfl

private theorem walkClashes_withFilters (engine : Engine) (filters : KeyFilters) (txn : TxnId)
    (header : HeaderId) (constraint : UniqueKey) (wanted : List Value) (exclude : Option RowId) :
    walkClashes { engine with filters := filters } txn header constraint wanted exclude =
      engine.walkClashes txn header constraint wanted exclude := by
  rw [walkClashes, walkClashes, walkForConstraints_withFilters]

private theorem walkHashes_withFilters (engine : Engine) (filters : KeyFilters) (txn : TxnId)
    (header : HeaderId) (constraint : UniqueKey) :
    walkHashes hasher { engine with filters := filters } txn header constraint =
      engine.walkHashes hasher txn header constraint := by
  rw [walkHashes, walkHashes, walkForConstraints_withFilters]

/-! ## One constraint -/

/-- Every hash a build collects from a reckoned value. -/
theorem mem_walkHashes {rowId : RowId} {value : Row} {key : List Value}
    (found : engine.constraintVersion txn (engine.loadChain header rowId) = some value)
    (extracted : constraint.extract value = some key) :
    hashKey hasher key ∈ engine.walkHashes hasher txn header constraint := by
  rw [walkHashes, List.mem_toFinset, List.mem_filterMap]
  exact ⟨(rowId, value), mem_walkForConstraints.mpr found, by simp [extracted]⟩

/-- The filters a check leaves behind after making sure one of them is built. -/
def filtersBuilt (hasher : Hasher) (engine : Engine) (filters : KeyFilters) (txn : TxnId)
    (table : TableId) (header : HeaderId) (constraint : UniqueKey) : KeyFilters :=
  if filters.isBuilt table constraint.columns then filters
  else filters.build table constraint.columns (engine.walkHashes hasher txn header constraint)

private theorem buildFilter_withFilters (hasher : Hasher) (engine : Engine) (filters : KeyFilters)
    (txn : TxnId) (table : TableId) (header : HeaderId) (constraint : UniqueKey) :
    buildFilter hasher { engine with filters := filters } txn table header constraint =
      { engine with
        filters := engine.filtersBuilt hasher filters txn table header constraint } := by
  unfold buildFilter filtersBuilt
  dsimp only
  split
  · rfl
  · rw [walkHashes_withFilters]

/-- A build that sees everything keeps the filters covering. -/
theorem Covers.filtersBuilt (covers : Covers hasher engine table header filters)
    (sees : filters.isBuilt table constraint.columns = false →
      ∀ rowId value, engine.MayHold (engine.loadChain header rowId) value → (constraint.extract value).isSome = true →
          engine.constraintVersion txn (engine.loadChain header rowId) = some value) :
    Covers hasher engine table header (engine.filtersBuilt hasher filters txn table header constraint) := by
  intro columns rowId value key mayHold extracted
  unfold Engine.filtersBuilt
  split
  · exact covers columns rowId value key mayHold extracted
  · rename_i notBuilt
    by_cases same : columns = constraint.columns
    · subst same
      have found := sees (by simpa using notBuilt) rowId value mayHold (by
        rw [UniqueKey.extract, extracted]
        rfl)
      exact mayContain_build (mem_walkHashes found extracted) filters table _
    · rw [mayContain_build_of_ne fun both => same both.2]
      exact covers columns rowId value key mayHold extracted

private theorem Covers.note (covers : Covers hasher engine table header filters) (probe : TableId) (columns : List Nat)
    (hash : UInt64) :
    Covers hasher engine table header (filters.note probe columns hash) := fun columns' rowId value key
    mayHold extracted =>
  mayContain_note (covers columns' rowId value key mayHold extracted) probe columns hash

/-- Covering filters never hide a clash. -/
theorem mayContain_of_clash {wanted : List Value} (covers : Covers hasher engine table header filters)
    (sameBits : ∀ rowId value key, engine.MayHold (engine.loadChain header rowId) value →
      constraint.extract value = some key → keyEq key wanted = true → key = wanted)
    (clash : engine.walkClashes txn header constraint wanted exclude = true) :
    filters.mayContain table constraint.columns (hashKey hasher wanted) = true := by
  obtain ⟨rowId, value, key, -, found, extracted, equal⟩ := walkClashes_iff.mp clash
  have mayHold := mayHold_of_constraintVersion found
  rw [← sameBits rowId value key mayHold extracted equal]
  exact covers constraint.columns rowId value key mayHold extracted

/-! ## The whole list -/

/-- The key columns a check has a filter for once it is done: those of every
constraint it came to whose key the row carries. -/
def checkedColumns (engine : Engine) (txn : TxnId) (header : HeaderId) (row : Row)
    (exclude : Option RowId) : List UniqueKey → List (List Nat)
  | [] => []
  | constraint :: rest =>
    match constraint.extract row with
    | none => checkedColumns engine txn header row exclude rest
    | some wanted =>
      constraint.columns ::
        if engine.walkClashes txn header constraint wanted exclude then []
        else checkedColumns engine txn header row exclude rest

/-- What a check has done to the filters. -/
structure Checked (hasher : Hasher) (engine : Engine) (txn : TxnId) (table : TableId)
    (header : HeaderId) (row : Row) (exclude : Option RowId) (unique : List UniqueKey)
    (before after : KeyFilters) : Prop where
  covers : Covers hasher engine table header after
  elsewhere : ∀ probe, probe ≠ table → ∀ columns hash,
    after.mayContain probe columns hash = before.mayContain probe columns hash
  noted : engine.enforceByWalk txn header row exclude unique = .ok () →
    ∀ constraint ∈ unique, ∀ wanted, constraint.extract row = some wanted →
      after.mayContain table constraint.columns (hashKey hasher wanted) = true
  monotone : ∀ columns hash, before.isBuilt table columns = true →
    before.mayContain table columns hash = true → after.mayContain table columns hash = true
  built : ∀ probe columns, after.isBuilt probe columns = (before.isBuilt probe columns || (decide (probe = table) &&
        decide (columns ∈ engine.checkedColumns txn header row exclude unique)))

private theorem isBuilt_filtersBuilt (filters : KeyFilters) (constraint : UniqueKey) (probe : TableId)
    (columns : List Nat) :
    (engine.filtersBuilt hasher filters txn table header constraint).isBuilt probe columns =
      (filters.isBuilt probe columns ||
        decide (probe = table ∧ columns = constraint.columns)) := by
  unfold filtersBuilt
  split
  · rename_i built
    by_cases same : probe = table ∧ columns = constraint.columns
    · simp [same, built]
    · simp [same]
  · rw [isBuilt_build, Bool.or_comm]

private theorem mayContain_filtersBuilt_elsewhere (filters : KeyFilters) (constraint : UniqueKey)
    {probe : TableId} (other : probe ≠ table) (columns : List Nat) (hash : UInt64) :
    (engine.filtersBuilt hasher filters txn table header constraint).mayContain probe columns hash =
      filters.mayContain probe columns hash := by
  unfold filtersBuilt
  split
  · rfl
  · exact mayContain_build_of_ne (fun both => other both.1) _ _ _

private theorem mayContain_filtersBuilt_of_built (constraint : UniqueKey) {columns : List Nat} {hash : UInt64}
    (built : filters.isBuilt table columns = true) (held : filters.mayContain table columns hash = true) :
    (engine.filtersBuilt hasher filters txn table header constraint).mayContain table columns hash =
      true := by
  unfold filtersBuilt
  split
  · exact held
  · rename_i notBuilt
    rw [mayContain_build_of_ne]
    · exact held
    · rintro ⟨-, rfl⟩
      exact notBuilt built

/-- With covering filters the check answers as the walk alone would, and leaves
covering filters behind. -/
theorem enforceUnique_spec (exclude : Option RowId) (covers : Covers hasher engine table header filters)
    (ready : CheckReady engine filters txn table header row unique) :
    ∃ after, enforceUnique hasher { engine with filters := filters } txn table header row exclude unique =
        (engine.enforceByWalk txn header row exclude unique, { engine with filters := after }) ∧
      Checked hasher engine txn table header row exclude unique filters after := by
  induction unique generalizing filters with
  | nil =>
    exact ⟨filters, rfl, covers, fun _ _ _ _ => rfl, by simp, fun _ _ _ held => held,
      by simp [checkedColumns]⟩
  | cons constraint rest ih =>
    rw [enforceUnique, enforceByWalk]
    cases extracted : constraint.extract row with
    | none =>
      obtain ⟨after, result, checked⟩ := ih covers ready.tail
      refine ⟨after, result, checked.covers, checked.elsewhere, ?_, checked.monotone, ?_⟩
      · intro passed other member wanted carries
        rw [enforceByWalk, extracted] at passed
        rcases List.mem_cons.mp member with rfl | inRest
        · simp [extracted] at carries
        · exact checked.noted passed other inRest wanted carries
      · rw [checkedColumns, extracted]
        exact checked.built
    | some wanted =>
      have coversBuilt : Covers hasher engine table header
          (engine.filtersBuilt hasher filters txn table header constraint) :=
        covers.filtersBuilt fun notBuilt =>
          ready.buildSees constraint List.mem_cons_self (by rw [extracted]; rfl) notBuilt
      dsimp only
      rw [buildFilter_withFilters, walkClashes_withFilters]
      cases clash : engine.walkClashes txn header constraint wanted exclude with
      | true =>
        have consulted := mayContain_of_clash coversBuilt
          (ready.sameBits constraint List.mem_cons_self wanted extracted) clash
        refine ⟨engine.filtersBuilt hasher filters txn table header constraint,
          by simp [consulted], coversBuilt, ?_, ?_, ?_, ?_⟩
        · exact fun probe other columns hash =>
            mayContain_filtersBuilt_elsewhere filters constraint other columns hash
        · intro passed
          simp [enforceByWalk, extracted, clash] at passed
        · exact fun columns hash isBuilt held =>
            mayContain_filtersBuilt_of_built constraint isBuilt held
        · intro probe columns
          rw [isBuilt_filtersBuilt, checkedColumns, extracted]
          simp [clash]
      | false =>
        have readyRest : CheckReady engine
            ((engine.filtersBuilt hasher filters txn table header constraint).note table
              constraint.columns (hashKey hasher wanted)) txn table header row rest :=
          ready.tail.of_built fun columns built => by
            rw [isBuilt_note, isBuilt_filtersBuilt, built, Bool.true_or]
        obtain ⟨after, result, checked⟩ := ih
          (coversBuilt.note table constraint.columns (hashKey hasher wanted)) readyRest
        have keeps : ∀ columns hash, (engine.filtersBuilt hasher filters txn table header constraint).isBuilt table
              columns = true →
            ((engine.filtersBuilt hasher filters txn table header constraint).note table
              constraint.columns (hashKey hasher wanted)).mayContain table columns hash = true →
            after.mayContain table columns hash = true := fun columns hash isBuilt held =>
          checked.monotone columns hash (by rwa [isBuilt_note]) held
        refine ⟨after, by simpa using result, checked.covers, ?_, ?_, ?_, ?_⟩
        · intro probe other columns hash
          rw [checked.elsewhere probe other, mayContain_note_of_ne other,
            mayContain_filtersBuilt_elsewhere filters constraint other]
        · intro passed other member key carries
          rcases List.mem_cons.mp member with rfl | inRest
          · obtain rfl : wanted = key := by simpa [extracted] using carries
            exact keeps _ _ (by simp [isBuilt_filtersBuilt]) (mayContain_note_self ..)
          · refine checked.noted ?_ other inRest key carries
            simpa [enforceByWalk, extracted, clash] using passed
        · intro columns hash isBuilt held
          refine keeps columns hash (by rw [isBuilt_filtersBuilt, isBuilt, Bool.true_or]) ?_
          exact mayContain_note (mayContain_filtersBuilt_of_built constraint isBuilt held) table _ _
        · intro probe columns
          rw [checked.built, isBuilt_note, isBuilt_filtersBuilt, checkedColumns, extracted]
          by_cases same : probe = table <;> simp [same, clash, Bool.or_assoc]

/-- The walk accepts exactly when no constraint clashes. -/
theorem enforceByWalk_ok_iff : engine.enforceByWalk txn header row exclude unique = .ok () ↔
      ∀ constraint ∈ unique, ∀ wanted, constraint.extract row = some wanted →
        engine.walkClashes txn header constraint wanted exclude = false := by
  induction unique with
  | nil => simp [enforceByWalk]
  | cons constraint rest ih =>
    rw [enforceByWalk, List.forall_mem_cons]
    cases extracted : constraint.extract row with
    | none => simpa using ih
    | some wanted =>
      cases clash : engine.walkClashes txn header constraint wanted exclude with
      | true => simp [clash]
      | false => simpa [clash] using ih

theorem checkedColumns_subset {columns : List Nat}
    (member : columns ∈ engine.checkedColumns txn header row exclude unique) :
    columns ∈ unique.map UniqueKey.columns := by
  induction unique with
  | nil => simp [checkedColumns] at member
  | cons constraint rest ih =>
    rw [checkedColumns] at member
    rw [List.map_cons]
    split at member
    · exact List.mem_cons_of_mem _ (ih member)
    · rcases List.mem_cons.mp member with rfl | later
      · exact List.mem_cons_self
      · split at later
        · simp at later
        · exact List.mem_cons_of_mem _ (ih later)

/-- The check in front of a row write, with covering filters: its answer is the
walk's; if it accepts and no filter outside the list knows a key of the row, the
filters rule out no key of the row either. -/
theorem checkUnique_spec (exclude : Option RowId) (covers : Covers hasher engine table header filters)
    (ready : CheckReady engine filters txn table header row unique) :
    ∃ after, checkUnique hasher { engine with filters := filters } txn table header row exclude unique =
        (engine.enforceByWalk txn header row exclude unique, { engine with filters := after }) ∧
      Covers hasher engine table header after ∧
      (∀ probe, probe ≠ table → ∀ columns hash,
        after.mayContain probe columns hash = filters.mayContain probe columns hash) ∧
      (∀ probe columns, after.isBuilt probe columns =
        if unique = [] then decide (probe ≠ table) && filters.isBuilt probe columns
        else filters.isBuilt probe columns ||
          (decide (probe = table) &&
            decide (columns ∈ engine.checkedColumns txn header row exclude unique))) ∧
      (engine.enforceByWalk txn header row exclude unique = .ok () →
        (unique ≠ [] → ∀ columns, filters.isBuilt table columns = true →
          columns ∈ unique.map UniqueKey.columns ∨ extractColumns row columns = none) →
        ∀ columns key, extractColumns row columns = some key →
          after.mayContain table columns (hashKey hasher key) = true) := by
  unfold checkUnique
  cases unique with
  | nil =>
    refine ⟨filters.invalidate table, rfl, ?_, ?_, ?_, ?_⟩
    · intro columns rowId value key _ _
      simp
    · intro probe other columns hash
      simp [other]
    · intro probe columns
      simp
    · intro _ _ columns key _
      simp
  | cons constraint rest =>
    obtain ⟨after, result, checked⟩ := enforceUnique_spec exclude covers ready
    refine ⟨after, result, checked.covers, checked.elsewhere, ?_, ?_⟩
    · simpa using checked.built
    · intro passed known columns key extracted
      by_cases listed : columns ∈ (constraint :: rest).map UniqueKey.columns
      · obtain ⟨named, member, rfl⟩ := List.mem_map.mp listed
        exact checked.noted passed named member key extracted
      · refine mayContain_of_not_built ?_ _
        have notChecked : columns ∉ engine.checkedColumns txn header row exclude
            (constraint :: rest) := fun member => listed (checkedColumns_subset member)
        rw [checked.built]
        cases built : filters.isBuilt table columns with
        | false => simp [notChecked]
        | true =>
          rcases known (by simp) columns built with inList | null
          · exact absurd inList listed
          · simp [null] at extracted

end Ferrite.Storage.Engine
