import Ferrite.Server.Session

/-!
# What a statement touches

The calls a statement makes inside its transaction. Reading and writing rows stays
within the transaction and leaves the catalog cache alone; a definition statement
changes the cache as well. Neither begins, ends or leaves the transaction, and
neither touches the session's own state.
-/

namespace Ferrite.Server

open Catalog Sql Exec
open Logical.Prog (Only only_ask only_ofExcept)
open Storage (Op)

/-- A storage call on rows of the given transaction. -/
def RowCall (txn : TxnId) : Op → Prop
  | .insertUnique owner _ _ _ | .updateUnique owner _ _ _ _ | .delete owner _ _ | .get owner _ _
  | .scan owner _ => owner = txn
  | _ => False

/-- A storage call on rows or tables of the given transaction. -/
def TableCall (txn : TxnId) : Op → Prop
  | .createTable owner _ | .dropTable owner _ => owner = txn
  | op => RowCall txn op

def PlanCall : {β : Type} → Call β → Prop
  | _, .readCache => True
  | _, .wallClock => True
  | _, _ => False

/-- The calls of a statement that works on rows. -/
def DmlCall (txn : TxnId) : {β : Type} → Call β → Prop
  | _, .storage op => RowCall txn op
  | _, .openScan owner _ => owner = txn
  | _, .scanNext owner _ _ => owner = txn
  | _, .readCache => True
  | _, .wallClock => True
  | _, .tick => True
  | _, _ => False

/-- The calls of a definition statement. -/
def DdlCall (txn : TxnId) : {β : Type} → Call β → Prop
  | _, .storage op => TableCall txn op
  | _, .commit _ => False
  | _, .openScan owner _ => owner = txn
  | _, .scanNext owner _ _ => owner = txn
  | _, .rebuild _ _ => False
  | _, .now => False
  | _, _ => True

section

variable {α : Type} {kind : {β : Type} → Call β → Prop}

theorem only_attempted {op : Call (Except FerriteError α)} (own : kind op) : (Action.attempted op).Only kind :=
  (only_ask own).bind fun _ => only_ofExcept _

/-- A storage call makes that call and no other. -/
theorem only_unitCall {op : Op} (own : kind (.storage op)) : (Action.unitCall op).Only kind := by
  refine (only_ask own).bind fun outcome => ?_
  cases outcome <;> trivial

theorem only_begin (own : kind (.storage .begin)) : Action.begin.Only kind := by
  refine (only_ask own).bind fun outcome => ?_
  cases outcome <;> trivial

theorem only_insertUnique {txn : TxnId} {table : TableId} {row : Row} {unique : List UniqueKey}
    (own : kind (.storage (.insertUnique txn table row unique))) :
    (Action.insertUnique txn table row unique).Only kind := by
  refine (only_ask own).bind fun outcome => ?_
  cases outcome <;> trivial

/-- A scan makes its own calls and those of its body. -/
theorem only_forEachRow {txn : TxnId} {table : TableId} {init : α} {body : RowId × Row → α → Action (ForInStep α)}
    (opens : kind (.openScan txn table)) (steps : ∀ start, kind (.scanNext txn table start))
    (own : ∀ entry acc, (body entry acc).Only kind) : (Action.forEachRow txn table init body).Only kind := by
  have loop : ∀ fuel start acc, (Action.scanLoop txn table body fuel start acc).Only kind := by
    intro fuel
    induction fuel with
    | zero => exact fun _ _ => trivial
    | succ fuel ih =>
      intro start acc
      refine (only_attempted (steps start)).bind fun found => ?_
      cases found with
      | none => trivial
      | some entry =>
        refine (own entry acc).bind fun step => ?_
        cases step with
        | done acc => trivial
        | yield acc => exact ih _ _
  exact (only_attempted opens).bind fun _ => loop _ _ _

end

/-! ## Planning -/

section

private theorem only_plan_readCache : Action.readCache.Only PlanCall := only_ask trivial

private theorem only_resolve (table : ObjectName) : (resolve table).Only (PlanCall) := by
  refine only_plan_readCache.bind fun cache => ?_
  split
  · trivial
  · exact only_plan_readCache.bind fun _ => (only_ofExcept _).bind fun _ => trivial

private theorem only_uniqueKeys (table : TableId) (schema : Schema) : (uniqueKeys table schema).Only (PlanCall) :=
  only_plan_readCache.bind fun _ => trivial

private theorem only_defaultExprs (columns : List ColumnDef) : (defaultExprs columns).Only (PlanCall) := by
  induction columns with
  | nil => trivial
  | cons column rest ih =>
    refine Only.bind ?_ fun _ => ih.bind fun _ => trivial
    match column.default with
    | none => trivial
    | some (.constant _) => trivial
    | some .currentTimestamp => exact (only_ask trivial).bind fun _ => trivial

private theorem only_buildOnConflict (source : TableSource) (clause : OnConflict) :
    (buildOnConflict source clause).Only (PlanCall) := by
  refine Only.bind ?_ fun _ => (only_ofExcept _).bind fun _ => (only_ofExcept _).bind fun _ => trivial
  rw [conflictTarget]
  split
  · refine only_plan_readCache.bind fun _ => ?_
    split <;> trivial
  · trivial

private theorem only_planInsert (stmt : Insert) : (planInsert stmt).Only (PlanCall) := by
  refine (only_resolve _).bind fun source => (only_ofExcept _).bind fun targets =>
    (only_defaultExprs _).bind fun defaults => (only_ofExcept _).bind fun rows =>
    Only.bind ?_ fun onConflict => (only_uniqueKeys _ _).bind fun unique => ?_
  · cases stmt.onConflict with
    | none => trivial
    | some clause => exact (only_buildOnConflict _ _).bind fun _ => trivial
  · trivial

private theorem only_resolveEach (tables : List ObjectName) : (resolveEach tables).Only (PlanCall) := by
  induction tables with
  | nil => trivial
  | cons table rest ih => exact (only_resolve _).bind fun _ => ih.bind fun _ => trivial

private theorem only_plan (statement : Statement) : (plan statement).Only (PlanCall) := by
  cases statement with
  | query query => exact (only_resolveEach _).bind fun _ => (only_ofExcept _).bind fun _ => trivial
  | insert stmt => exact only_planInsert stmt
  | update stmt =>
    exact (only_resolve _).bind fun _ => (only_ofExcept _).bind fun _ => (only_ofExcept _).bind
      fun _ => (only_uniqueKeys _ _).bind fun _ => trivial
  | delete stmt => exact (only_resolve _).bind fun _ => (only_ofExcept _).bind fun _ => trivial
  | call call => exact (only_ofExcept _).bind fun _ => trivial
  | _ => trivial

end

/-! ## Rows -/

section

variable {txn : TxnId}

private theorem only_readCache : Action.readCache.Only (DmlCall txn) := only_ask trivial

variable (session : Session)

private theorem only_admitRows (rows : Nat) : (session.admitRows rows).Only (DmlCall txn) := by
  rw [Session.admitRows]
  split <;> trivial

private theorem only_tick : Session.tick.Only (DmlCall txn) := only_attempted trivial

private theorem only_checkSchema (table : TableId) (tableName : String) (planned : Schema) :
    (Session.checkSchema table tableName planned).Only (DmlCall txn) := by
  refine only_readCache.bind fun _ => (only_ofExcept _).bind fun _ => ?_
  split <;> trivial

private theorem only_stream (source : Source) : (session.stream txn source).Only (DmlCall txn) := by
  refine (only_checkSchema _ _ _).bind fun _ => Only.bind ?_ fun _ =>
    (only_admitRows session _).bind fun _ => trivial
  refine only_forEachRow rfl (fun _ => rfl) fun entry out => ?_
  refine only_tick.bind fun _ => (only_ofExcept _).bind fun keep => ?_
  split
  · exact (only_admitRows session _).bind fun _ => trivial
  · trivial

private theorem only_streamEach (sources : List Source) : (session.streamEach txn sources).Only (DmlCall txn) := by
  induction sources with
  | nil => trivial
  | cons source rest ih => exact (only_stream session _).bind fun _ => ih.bind fun _ => trivial

private theorem only_conflictingRow (table : TableId) (schema : Schema) (target : List Nat) (candidate : Row) :
    (Session.conflictingRow txn table schema target candidate).Only (DmlCall txn) := by
  rw [Session.conflictingRow]
  split
  · trivial
  · refine only_forEachRow rfl (fun _ => rfl) fun entry _ => only_tick.bind fun _ => ?_
    split <;> trivial

private theorem only_writeUpdate (table : TableId) (tableName : String) (schema : Schema) (existing : Tuple)
    (candidate : Row) (unique : List UniqueKey) :
    (session.writeUpdate txn table tableName schema existing candidate unique).Only (DmlCall txn) := by
  refine (only_ofExcept _).bind fun decision => ?_
  split
  · trivial
  · exact (only_ofExcept _).bind fun _ => (only_unitCall rfl).bind fun _ => trivial

private theorem only_insertRow (table : TableId) (tableName : String) (schema : Schema)
    (onConflict : Option PhysOnConflict) (unique : List UniqueKey) (row : Row) :
    (session.insertRow txn table tableName schema onConflict unique row).Only (DmlCall txn) := by
  have stores : (Session.storeRow txn table unique row).Only (DmlCall txn) :=
    (only_insertUnique rfl).bind fun _ => trivial
  cases onConflict with
  | none => exact stores
  | some clause =>
    refine (only_conflictingRow _ _ _ _).bind fun found => ?_
    cases found with
    | none => exact stores
    | some existing =>
      change (session.resolveConflict txn table tableName schema clause.action existing row unique).Only (DmlCall txn)
      cases clause.action with
      | nothing => trivial
      | update assignments selection =>
        refine (only_ofExcept _).bind fun keep => ?_
        split
        · exact (only_ofExcept _).bind fun _ => only_writeUpdate session _ _ _ _ _ _
        · trivial

private theorem only_runInsert (table : TableId) (tableName : String) (schema : Schema)
    (onConflict : Option PhysOnConflict) (unique : List UniqueKey) (rows : List (List Scalar)) (affected : Nat) :
    (session.runInsert txn table tableName schema onConflict unique rows affected).Only (DmlCall txn) := by
  induction rows generalizing affected with
  | nil => trivial
  | cons exprs rest ih =>
    refine only_tick.bind fun _ => (only_ofExcept _).bind fun values => (only_ofExcept _).bind fun decision => ?_
    split
    · exact ih _
    · exact (only_ofExcept _).bind fun _ => (only_insertRow session _ _ _ _ _ _).bind fun _ => ih _

private theorem only_runUpdate (table : TableId) (tableName : String) (schema : Schema)
    (assignments : List (Nat × Scalar)) (unique : List UniqueKey) (tuples : List Tuple) (affected : Nat) :
    (session.runUpdate txn table tableName schema assignments unique tuples affected).Only (DmlCall txn) := by
  induction tuples generalizing affected with
  | nil => trivial
  | cons tuple rest ih =>
    exact only_tick.bind fun _ => (only_ofExcept _).bind fun _ =>
      (only_writeUpdate session _ _ _ _ _ _).bind fun _ => ih _

private theorem only_runDelete (table : TableId) (tableName : String) (tuples : List Tuple) (affected : Nat) :
    (session.runDelete txn table tableName tuples affected).Only (DmlCall txn) := by
  induction tuples generalizing affected with
  | nil => trivial
  | cons tuple rest ih =>
    refine only_tick.bind fun _ => (only_ofExcept _).bind fun _ => (only_ofExcept _).bind fun keep => ?_
    split
    · exact (only_unitCall rfl).bind fun _ => ih _
    · exact ih _

/-- Running a plan stays within its transaction and leaves the catalog alone. -/
theorem only_execute (physical : PhysicalPlan) : (session.execute txn physical).Only (DmlCall txn) := by
  have authorized : ∀ permission, (session.authorize permission).Only (DmlCall txn) := fun _ => only_ofExcept _
  cases physical with
  | insert table tableName schema rows onConflict unique =>
    refine Only.bind ?_ fun _ => (only_checkSchema _ _ _).bind fun _ =>
      (only_runInsert session _ _ _ _ _ _ _).bind fun _ => trivial
    refine (authorized _).bind fun _ => ?_
    split
    · exact authorized _
    · trivial
  | update table tableName schema source assignments unique =>
    exact (authorized _).bind fun _ => (only_checkSchema _ _ _).bind fun _ =>
      (only_stream session _).bind fun _ => (only_runUpdate session _ _ _ _ _ _ _).bind fun _ => trivial
  | delete table tableName schema source =>
    exact (authorized _).bind fun _ => (only_checkSchema _ _ _).bind fun _ =>
      (only_stream session _).bind fun _ => (only_runDelete session _ _ _ _).bind fun _ => trivial
  | callProcedure name args => exact (only_ofExcept _).bind fun _ => (only_ofExcept _).bind fun _ => trivial
  | query sources output rows =>
    exact (authorized _).bind fun _ => (only_streamEach session _).bind fun _ =>
      (only_ofExcept _).bind fun _ => trivial

private theorem PlanCall.dmlCall {β : Type} {op : Call β} (own : PlanCall op) : DmlCall txn op := by
  cases op <;> trivial

/-- A statement that is neither definition nor transaction control only works on rows. -/
theorem only_planAndExecute (inner : Inner) (caller : Identity) (statement : Statement) (txn : TxnId) :
    (inner.planAndExecute caller statement txn).Only (DmlCall txn) :=
  ((only_plan statement).mono fun _ => PlanCall.dmlCall).bind fun _ =>
    (only_execute _ _).bind fun _ => trivial

end

/-! ## Definitions -/

section

variable {txn : TxnId}

private theorem only_ddl_readCache : Action.readCache.Only (DdlCall txn) := only_ask trivial

private theorem only_ddl_scan {α : Type} {table : TableId} {init : α} {body : RowId × Row → α → Action (ForInStep α)}
    (own : ∀ entry acc, (body entry acc).Only (DdlCall txn)) :
    (Action.forEachRow txn table init body).Only (DdlCall txn) :=
  only_forEachRow rfl (fun _ => rfl) own

section

variable (formats : TextFormats)

private theorem only_recordColumn (id : TableId) (position : Nat) (column : ColumnDef) :
    (recordColumn formats txn id position column).Only (DdlCall txn) :=
  (only_ofExcept _).bind fun _ => (only_ofExcept _).bind fun _ =>
    (only_insertUnique rfl).bind fun _ => trivial

private theorem only_recordColumns (id : TableId) (columns : List (ColumnDef × Nat)) :
    (recordColumns formats txn id columns).Only (DdlCall txn) := by
  induction columns with
  | nil => trivial
  | cons column rest ih => exact (only_recordColumn formats _ _ _).bind fun _ => ih

private theorem only_createTableIn (schema name : String) (columns : Schema) :
    (createTableIn formats txn schema name columns).Only (DdlCall txn) :=
  (only_ofExcept _).bind fun _ => (only_attempted trivial).bind fun _ =>
    (only_unitCall rfl).bind fun _ => (only_insertUnique rfl).bind fun _ =>
    (only_recordColumns formats _ _).bind fun _ => (only_ask trivial).bind fun _ => trivial

private theorem only_addColumnIn (table : TableId) (column : ColumnDef) :
    (addColumnIn formats txn table column).Only (DdlCall txn) := by
  rw [addColumnIn]
  split
  · trivial
  split
  · trivial
  · exact only_ddl_readCache.bind fun _ => (only_ofExcept _).bind fun _ =>
      (only_recordColumn formats _ _ _).bind fun _ => only_ask trivial

end

private theorem only_deleteRows (table : TableId) (column : Nat) (wanted : TableId) :
    (deleteRows txn table column wanted).Only (DdlCall txn) := by
  have each : ∀ rows, (deleteEach txn table rows).Only (DdlCall txn) := by
    intro rows
    induction rows with
    | nil => trivial
    | cons row rest ih => exact (only_unitCall rfl).bind fun _ => ih
  refine Only.bind (only_ddl_scan fun _ _ => ?_) fun _ => each _
  exact (only_ofExcept _).bind fun _ => trivial

private theorem only_dropIndexIn (index : IndexId) : (dropIndexIn txn index).Only (DdlCall txn) := by
  refine only_ddl_readCache.bind fun _ => ?_
  split
  · trivial
  · exact (only_deleteRows _ _ _).bind fun _ => only_ask trivial

private theorem only_dropIndexesIn (indexes : List IndexDef) : (dropIndexesIn txn indexes).Only (DdlCall txn) := by
  induction indexes with
  | nil => trivial
  | cons index rest ih => exact (only_dropIndexIn _).bind fun _ => ih

private theorem only_dropTableIn (table : TableId) : (dropTableIn txn table).Only (DdlCall txn) := by
  refine Only.bind ?_ fun _ => only_ddl_readCache.bind fun _ => (only_dropIndexesIn _).bind fun _ =>
    (only_deleteRows _ _ _).bind fun _ => (only_deleteRows _ _ _).bind fun _ =>
    (only_unitCall rfl).bind fun _ => only_ask trivial
  rw [checkDroppable]
  split
  · trivial
  · refine only_ddl_readCache.bind fun _ => ?_
    split <;> trivial

private theorem only_createIndexIn (name : String) (table : TableId) (columns : List String) (unique : Bool) :
    (createIndexIn txn name table columns unique).Only (DdlCall txn) := by
  have record : ∀ index columns, (recordIndexColumns txn index columns).Only (DdlCall txn) := by
    intro index columns
    induction columns with
    | nil => trivial
    | cons column rest ih => exact (only_ofExcept _).bind fun _ => (only_insertUnique rfl).bind fun _ => ih
  rw [createIndexIn]
  split
  · trivial
  split
  · trivial
  · exact only_ddl_readCache.bind fun _ => (only_ofExcept _).bind fun _ => (only_ask trivial).bind
      fun _ => (record _ _).bind fun _ => (only_ask trivial).bind fun _ => trivial

private theorem only_checkUniqueHolds (table : TableId) (index : String) (columns : List String) :
    (Inner.checkUniqueHolds txn table index columns).Only (DdlCall txn) := by
  refine only_ddl_readCache.bind fun _ => (only_ofExcept _).bind fun _ => (only_ofExcept _).bind fun _ => ?_
  refine Only.bind (only_ddl_scan fun entry seen => ?_) fun _ => trivial
  split
  · trivial
  · split <;> trivial

private theorem only_checkAddable (table : TableId) (namespaceName name : String) (column : ColumnDef) :
    (Inner.checkAddable txn table namespaceName name column).Only (DdlCall txn) := by
  rw [Inner.checkAddable]
  split
  · trivial
  · refine (only_attempted rfl).bind fun _ => (only_attempted rfl).attempt.bind fun found => ?_
    split <;> trivial

private theorem only_createKeys (namespaceName name : String) (id : TableId) (keys : List (List String × Nat)) :
    (Inner.createKeys txn namespaceName name id keys).Only (DdlCall txn) := by
  induction keys with
  | nil => trivial
  | cons key rest ih =>
    refine Only.bind ?_ fun _ => ih
    refine only_ddl_readCache.bind fun _ => ?_
    split
    · exact (only_createIndexIn _ _ _ _).bind fun _ => trivial
    · trivial

variable (inner : Inner)

private theorem only_createTable (create : CreateTable) : (inner.createTable create txn).Only (DdlCall txn) := by
  refine only_ddl_readCache.bind fun _ => ?_
  split
  · split <;> trivial
  · exact (only_ofExcept _).bind fun _ => (only_ofExcept _).bind fun _ =>
      (only_createTableIn _ _ _ _).bind fun _ => (only_createKeys _ _ _ _).bind fun _ => trivial

private theorem only_alterTable (alter : AlterTable) : (inner.alterTable alter txn).Only (DdlCall txn) := by
  refine only_ddl_readCache.bind fun cache => ?_
  split
  · split <;> trivial
  · refine Only.bind ?_ fun present => ?_
    · rw [Inner.columnPresent]
      split
      · exact only_ddl_readCache.bind fun _ => (only_ofExcept _).bind fun _ => trivial
      · trivial
    · split
      · trivial
      · exact (only_ofExcept _).bind fun _ => (only_checkAddable _ _ _ _).bind fun _ =>
          (only_addColumnIn _ _ _).bind fun _ => trivial

private theorem only_dropTables (ifExists : Bool) (tables : List ObjectName) :
    (Inner.dropTables ifExists txn tables).Only (DdlCall txn) := by
  induction tables with
  | nil => trivial
  | cons table rest ih =>
    refine only_ddl_readCache.bind fun _ => ?_
    split
    · exact (only_dropTableIn _).bind fun _ => ih
    · split
      · exact ih
      · trivial

private theorem only_createIndex (create : CreateIndex) : (Inner.createIndex create txn).Only (DdlCall txn) := by
  refine only_ddl_readCache.bind fun _ => ?_
  split
  · trivial
  · refine only_ddl_readCache.bind fun _ => ?_
    split
    · split <;> trivial
    · refine Only.bind ?_ fun _ => (only_createIndexIn _ _ _ _).bind fun _ => trivial
      rw [Inner.checkCreatable]
      split
      · exact only_checkUniqueHolds _ _ _
      · trivial

private theorem only_dropIndex (drop : DropIndex) : (Inner.dropIndex drop txn).Only (DdlCall txn) := by
  refine only_ddl_readCache.bind fun _ => ?_
  split
  · exact (only_dropIndexIn _).bind fun _ => trivial
  · split <;> trivial

/-- A definition statement past the point where it notes that it ran. -/
theorem only_ddlBody (statement : Statement) : (inner.ddlBody statement txn).Only (DdlCall txn) := by
  cases statement with
  | createTable create => exact only_createTable inner create
  | alterTable alter => exact only_alterTable inner alter
  | dropTable drop => exact (only_dropTables _ _).bind fun _ => trivial
  | createIndex create => exact only_createIndex create
  | dropIndex drop => exact only_dropIndex drop
  | _ => trivial

end

/-! ## Reloading the catalog -/

section

variable {kind : {β : Type} → Call β → Prop}

theorem only_readAll (formats : TextFormats) {txn : TxnId} (opens : ∀ table, kind (.openScan txn table))
    (steps : ∀ table start, kind (.scanNext txn table start)) : (readAll formats txn).Only kind := by
  have folds : ∀ {α : Type} table (init : α) step, (foldRows txn table init step).Only kind :=
    fun table _ _ => only_forEachRow (opens table) (steps table) fun _ _ =>
      (only_ofExcept _).bind fun _ => trivial
  exact (folds _ _ _).bind fun _ => (folds _ _ _).bind fun _ => (folds _ _ _).bind fun _ => trivial

/-- A reload reads in a transaction of its own. -/
theorem only_reload (formats : TextFormats) (begins : kind (.storage .begin))
    (opens : ∀ txn table, kind (.openScan txn table)) (steps : ∀ txn table start, kind (.scanNext txn table start))
    (ends : ∀ txn, kind (.commit txn) ∧ kind (.storage (.abort txn)))
    (rebuilds : ∀ tables indexes, kind (.rebuild tables indexes)) : (reload formats).Only kind := by
  refine (only_begin begins).bind fun txn =>
    (only_readAll formats (opens txn) (steps txn)).attempt.bind fun result => ?_
  refine Only.bind ?_ fun _ => only_ask (rebuilds _ _)
  cases result with
  | ok value => exact (only_attempted (ends txn).1).bind fun _ => trivial
  | error e => exact (only_unitCall (ends txn).2).attempt.bind fun _ => trivial

end

theorem only_describe (sql : Protocol.SqlText) : (Inner.describeStatement sql).Only PlanCall := by
  refine (only_ofExcept _).bind fun statements => ?_
  split
  · trivial
  · refine (only_plan _).attempt.bind fun result => ?_
    split <;> trivial

end Ferrite.Server
