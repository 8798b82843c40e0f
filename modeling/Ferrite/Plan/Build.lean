import Ferrite.Exec.Planner
import Ferrite.Plan.Lower
import Ferrite.Plan.Rules

/-!
# Building logical plans

The half of `ferrite-planner/src/planner.rs` between the parsed statement and the
logical plan. A query is built in SQL's own evaluation order: `FROM`, `WHERE`,
grouping, `HAVING`, `ORDER BY`, the select list, `DISTINCT`, `LIMIT`.
-/

namespace Ferrite.Plan

open Sql
open Exec (defaultNamespace positionsOf typeAt)

variable {Q S P : Type}

/-- What a statement is planned with. A nested query is built and lowered by the
planner itself; `subquery` and `subplans` are those two passes. -/
structure Planner (Q S P : Type) where
  formats : TextFormats
  calendar : Calendar
  tableId : String → String → Except FerriteError (Option TableId)
  tableSchema : TableId → Except FerriteError Schema
  indexesFor : TableId → List IndexDef
  params : List Value
  subquery : Q → Except FerriteError S
  subplans : Subplans S P

/-- A planner over a catalog without tables. -/
def Planner.bare : Planner Empty Empty Empty where
  formats := .decimal
  calendar := .blank
  tableId _ _ := .ok none
  tableSchema id := .error (.tableNotFound s!"{id}")
  indexesFor _ := []
  params := []
  subquery := (nomatch ·)
  subplans := ⟨(nomatch ·), (nomatch ·)⟩

/-- A `FROM` clause: its plan and the relation names it brings into scope. -/
structure FromClause (S : Type) where
  plan : LogicalPlan S
  qualifiers : List String

/-- Coerce a literal to the type of the column it is written into. -/
def coerce (formats : TextFormats) (expr : Expr S) (target : DataType) : Except FerriteError (Expr S) :=
  match expr with
  | .literal value => Expr.literal <$> coerceLiteral formats value target
  | other => .ok other

def usingEquality (left right : Scope) (name : String) : Except FerriteError (Expr S) := do
  let leftPosition ← left.resolve ⟨none, name⟩
  let rightPosition ← right.resolve ⟨none, name⟩
  pure (Expr.eq (.slot leftPosition) (.slot (left.len + rightPosition)))

/-- `USING (a, b)` is `left.a = right.a AND left.b = right.b`, by position. -/
def usingPredicate (columns : List String) (left right : Scope) : Except FerriteError (Expr S) := do
  let conjuncts ← columns.mapM (usingEquality left right)
  match combineConjunction conjuncts with
  | some predicate => pure predicate
  | none => .error (.plan "USING needs at least one column")

/-- An aggregate of the grouping; only `count` takes `*`. -/
def lowerAggregate [BEq Q] (formats : TextFormats) (lowerer : Lowerer Q S)
    (call : Ast.FunctionCall (Ast.Expr Q)) : Except FerriteError (AggregateCall S) :=
  match AggregateFunc.parse call.name, call.args with
  | none, _ => .error (unsupported s!"the aggregate {call.name}")
  | some func, .wildcard =>
    if func = .count then .ok ⟨func, none, call.distinct⟩
    else .error (.plan s!"{call.name}(*) is not defined; only count(*) is")
  | some func, .list [only] => do
    let arg ← lowerer.expr formats only
    pure ⟨func, some arg, call.distinct⟩
  | some _, .list _ => .error (.plan s!"{call.name}() takes exactly one argument")

/-! ## The select list -/

/-- Every column of the given positions, under its own name. -/
def expandPositions (scope : Scope) (positions : List Nat) : Except FerriteError (List (ProjectionItem S)) :=
  positions.mapM fun position => do
    let column ← scope.column position
    pure ⟨.slot position, column.name⟩

def lowercaseType : DataType → String
  | .boolean => "boolean"
  | .int4 => "int4"
  | .int8 => "int8"
  | .float8 => "float8"
  | .text => "text"
  | .timestamp => "timestamp"
  | .uuid => "uuid"
  | .json => "json"

/-- What a select item without an alias is called. -/
def outputName : Ast.Expr Q → String
  | .column name => name.base
  | .function call => call.name
  | .cast _ dataType => lowercaseType dataType
  | _ => "?column?"

/-- The items one entry of the select list stands for. -/
def projectionItem (scope : Scope) (grouped : Bool) (rewrite : Ast.Expr Q → Except FerriteError (Expr S)) :
    Ast.SelectItem Q → Except FerriteError (List (ProjectionItem S))
  | .wildcard =>
    if grouped then .error (.plan "* cannot be used with GROUP BY or an aggregate")
    else expandPositions scope (List.range scope.len)
  | .qualifiedWildcard name =>
    if grouped then .error (.plan "* cannot be used with GROUP BY or an aggregate")
    else if (scope.positionsFor name.base).isEmpty then
      .error (.plan s!"no relation named {name.base} in this statement")
    else expandPositions scope (scope.positionsFor name.base)
  | .expr expr aliasName => do
    let lowered ← rewrite expr
    pure [⟨lowered, aliasName.getD (outputName expr)⟩]

/-- A bare `SELECT *` needs no projection. -/
def projectionItems (projection : List (Ast.SelectItem Q)) (scope : Scope) (grouped : Bool)
    (rewrite : Ast.Expr Q → Except FerriteError (Expr S)) :
    Except FerriteError (Option (List (ProjectionItem S))) :=
  match projection, grouped with
  | [], _ => .error (.plan "empty SELECT list")
  | [.wildcard], false => .ok none
  | projection, grouped => do
    let items ← projection.mapM (projectionItem scope grouped rewrite)
    pure (some items.flatten)

/-- The select item an `ORDER BY` expression names, by position or by alias. -/
def selectListReference (items : List (ProjectionItem S)) : Ast.Expr Q → Except FerriteError (Option (Expr S))
  | .literal (.int number) =>
    match if 1 ≤ number.toInt then items[number.toInt.toNat - 1]? else none with
    | some item => .ok (some item.expr)
    | none => .error (.plan s!"ORDER BY position {writeInteger number.toInt} is not in the select list")
  | .column name =>
    if name.qualifier.isNone then
      .ok ((items.find? fun item => item.outputName == name.base).map ProjectionItem.expr)
    else .ok none
  | _ => .ok none

def sortKey (items : List (ProjectionItem S)) (rewrite : Ast.Expr Q → Except FerriteError (Expr S))
    (item : Ast.OrderByItem Q) : Except FerriteError (SortKey S) := do
  let expr ← match ← selectListReference items item.expr with
    | some expr => pure expr
    | none => rewrite item.expr
  pure ⟨expr, item.asc, item.nullsFirst.getD !item.asc⟩

/-- The first select item with that alias. -/
def aliased (name : String) : List (Ast.SelectItem Q) → Option (Ast.Expr Q)
  | [] => none
  | .expr expr (some aliasName) :: rest => if aliasName == name then some expr else aliased name rest
  | _ :: rest => aliased name rest

/-- A group key may name a select-list alias, unless an input column has that name. -/
def groupKey [BEq Q] (formats : TextFormats) (lowerer : Lowerer Q S) (fromScope : Scope)
    (projection : List (Ast.SelectItem Q)) (key : Ast.Expr Q) : Except FerriteError (Expr S) :=
  match key with
  | .column name =>
    if name.qualifier.isSome || fromScope.canResolve ⟨none, name.base⟩ then lowerer.expr formats key
    else lowerer.expr formats ((aliased name.base projection).getD key)
  | _ => lowerer.expr formats key

def selectItemExpr : Ast.SelectItem Q → Option (Ast.Expr Q)
  | .expr expr _ => some expr
  | _ => none

/-- The aggregate calls of the select list, `HAVING` and `ORDER BY`. -/
def collectCalls [BEq Q] (tail : QueryTail Q) : Except FerriteError (List (Ast.FunctionCall (Ast.Expr Q))) :=
  (tail.select.projection.filterMap selectItemExpr ++ tail.select.having.toList ++
    tail.orderBy.map Ast.OrderByItem.expr).foldlM collectAggregates []

/-- What a query's upper clauses stand on: the plan so far, its group keys and the
columns above it. -/
structure Grouping (S : Type) where
  plan : LogicalPlan S
  keys : List (Expr S)
  scope : Scope

/-- Put a node on top when there is something for it to do. -/
def sorted (plan : LogicalPlan S) (keys : List (SortKey S)) : LogicalPlan S :=
  if keys.isEmpty then plan else .sort plan keys

def projected (plan : LogicalPlan S) : Option (List (ProjectionItem S)) → LogicalPlan S
  | none => plan
  | some items => .projection plan items

def limited (plan : LogicalPlan S) (count : Option Nat) (offset : Nat) : LogicalPlan S :=
  if count.isSome || 0 < offset then .limit plan count offset else plan

namespace Planner

variable (planner : Planner Q S P)

def resolve (table : ObjectName) (aliasName : Option String) : Except FerriteError TableSource := do
  let (namespaceName, name) := table.split defaultNamespace
  match ← planner.tableId namespaceName name with
  | none => .error (.tableNotFound s!"{namespaceName}.{name}")
  | some id =>
    let schema ← planner.tableSchema id
    pure ⟨id, name, aliasName, schema⟩

def tableFactor : Ast.TableFactor Q → Except FerriteError (FromClause S)
  | .table name aliasName => do
    let source ← planner.resolve name aliasName
    pure ⟨.scan source none, source.qualifiers⟩
  | .derived _ _ => .error (unsupported "a subquery in FROM")

/-- Expressions outside a `SELECT`, where no relation and no subquery is in scope. -/
def lowerer : Lowerer Q S := ⟨planner.calendar, planner.params, [], none, none⟩

/-- Expressions of a clause that may hold subqueries. -/
def clauseLowerer (qualifiers : List String) : Lowerer Q S :=
  { planner.lowerer with qualifiers := qualifiers, subqueries := some planner.subquery }

/-! ## `FROM` -/

section

variable [BEq Q]

def joinCondition (qualifiers : List String) (left right : Scope) :
    Ast.JoinConstraint Q → Except FerriteError (Option (Expr S))
  | .none => .ok none
  | .on expr =>
    if expr.containsAggregate then .error (unsupported "an aggregate in a join condition")
    else do
      let on ← { planner.lowerer with qualifiers := qualifiers }.expr planner.formats expr
      pure (some on)
  | .using columns => do
    let on ← usingPredicate columns left right
    pure (some on)

/-- Join one more relation. A `FROM` tree always has a scope, which the source expects. -/
def addJoin (clause : FromClause S) (join : Ast.Join Q) : Except FerriteError (FromClause S) := do
  let right ← planner.tableFactor join.relation
  let qualifiers := clause.qualifiers ++ right.qualifiers
  match clause.plan.scope, right.plan.scope with
  | some leftScope, some rightScope =>
    let on ← planner.joinCondition qualifiers leftScope rightScope join.constraint
    pure ⟨.join clause.plan right.plan join.joinType on, qualifiers⟩
  | _, _ => .error (.plan "a FROM tree always has a scope")

def buildJoins (item : Ast.TableWithJoins Q) : Except FerriteError (FromClause S) := do
  let first ← planner.tableFactor item.relation
  item.joins.foldlM planner.addJoin first

/-- A comma in `FROM` is a cross join. -/
def addCross (clause : FromClause S) (item : Ast.TableWithJoins Q) : Except FerriteError (FromClause S) := do
  let right ← planner.buildJoins item
  pure ⟨.join clause.plan right.plan .cross none, clause.qualifiers ++ right.qualifiers⟩

def buildFrom : List (Ast.TableWithJoins Q) → Except FerriteError (FromClause S)
  | [] => .error (unsupported "a SELECT without FROM")
  | first :: rest => do
    let clause ← planner.buildJoins first
    rest.foldlM planner.addCross clause

/-! ## Queries -/

/-- `WHERE`, which may hold no aggregate. -/
def buildWhere (lowerer : Lowerer Q S) (plan : LogicalPlan S) :
    Option (Ast.Expr Q) → Except FerriteError (LogicalPlan S)
  | none => .ok plan
  | some predicate =>
    if predicate.containsAggregate then
      .error (.plan "aggregates are not allowed in WHERE; use HAVING")
    else do
      let lowered ← lowerer.expr planner.formats predicate
      pure (.filter plan lowered)

def buildGrouping (lowerer : Lowerer Q S) (select : Ast.Select Q) (fromScope : Scope) (plan : LogicalPlan S)
    (calls : List (Ast.FunctionCall (Ast.Expr Q))) (grouped : Bool) : Except FerriteError (Grouping S) :=
  if grouped then do
    let keys ← select.groupBy.mapM (groupKey planner.formats lowerer fromScope select.projection)
    let aggregates ← calls.mapM (lowerAggregate planner.formats lowerer)
    let schema ← aggregateSchema keys aggregates fromScope
    pure ⟨.aggregate plan keys aggregates, keys, Scope.anonymous schema⟩
  else .ok ⟨plan, [], fromScope⟩

/-- Lower an expression above the grouping. -/
def rewrite [BEq S] (upper : Lowerer Q S) (keys : List (Expr S)) (grouped : Bool) (expr : Ast.Expr Q) :
    Except FerriteError (Expr S) := do
  let lowered ← upper.expr planner.formats expr
  let substituted := substituteGroupKeys keys lowered
  if grouped then rejectUngrouped substituted else .ok ()
  pure substituted

def buildHaving (rewrite : Ast.Expr Q → Except FerriteError (Expr S)) (plan : LogicalPlan S) :
    Option (Ast.Expr Q) → Except FerriteError (LogicalPlan S)
  | none => .ok plan
  | some having => do
    let predicate ← rewrite having
    pure (.filter plan predicate)

/-- The clauses above the grouping. -/
def buildUpper (tail : QueryTail Q) (lowerer : Lowerer Q S) (grouping : Grouping S) (grouped : Bool)
    (rewrite : Ast.Expr Q → Except FerriteError (Expr S)) : Except FerriteError (LogicalPlan S) := do
  let plan ← buildHaving rewrite grouping.plan tail.select.having
  let items ← projectionItems tail.select.projection grouping.scope grouped rewrite
  let keys ← tail.orderBy.mapM (sortKey (items.getD []) rewrite)
  let ordered := projected (sorted plan keys) items
  let deduplicated := if tail.select.distinct then .distinct ordered else ordered
  let count ← rowCount planner.formats lowerer "LIMIT" tail.limit
  let offset ← rowCount planner.formats lowerer "OFFSET" tail.offset
  pure (limited deduplicated count (offset.getD 0))

/-- Whether a query groups its rows. -/
def isGrouped (select : Ast.Select Q) (calls : List (Ast.FunctionCall (Ast.Expr Q))) : Bool :=
  !select.groupBy.isEmpty || !calls.isEmpty || select.having.isSome

/-- A query above its `FROM` clause. -/
def buildClauses [BEq S] (tail : QueryTail Q) (clause : FromClause S) (fromScope : Scope) :
    Except FerriteError (LogicalPlan S) := do
  let lowerer := planner.clauseLowerer clause.qualifiers
  let plan ← planner.buildWhere lowerer clause.plan tail.select.selection
  let calls ← collectCalls tail
  let grouped := isGrouped tail.select calls
  let grouping ← planner.buildGrouping lowerer tail.select fromScope plan calls grouped
  let upper := { lowerer with aggregates := some ⟨calls, grouping.keys.length⟩ }
  planner.buildUpper tail lowerer grouping grouped (planner.rewrite upper grouping.keys grouped)

def buildSelect [BEq S] (query : Ast.Query Q) : Except FerriteError (LogicalPlan S) := do
  let tail ← singleSelect query
  let clause ← planner.buildFrom tail.select.sources
  match clause.plan.scope with
  | some fromScope => planner.buildClauses tail clause fromScope
  | none => .error (.plan "a FROM tree is made of scans and joins, which both have a scope")

/-! ## Row-changing statements -/

/-- The value a column takes when a write does not supply one. -/
def defaultExpr : Option ColumnDefault → Expr S
  | none => .literal .null
  | some (.constant value) => .literal value
  | some .currentTimestamp => .literal (.timestamp planner.calendar.now)

/-- One row of `VALUES`, every column starting at its default. -/
def insertRow (source : TableSource) (targets : List Nat) (exprs : List (Ast.Expr Q)) :
    Except FerriteError (List (Expr S)) :=
  if exprs.length ≠ targets.length then
    .error (.plan s!"INSERT into {source.name} expects {targets.length} values per row, got {exprs.length}")
  else
    (targets.zip exprs).foldlM
      (fun row target => do
        let lowered ← planner.lowerer.expr planner.formats target.2
        let coerced ← coerce planner.formats lowered (typeAt source.schema target.1)
        pure (row.set target.1 coerced))
      (source.schema.columns.map fun column => planner.defaultExpr column.default)

/-- `SET column = value`, the value coerced to the column's type. -/
def assignment (lowerer : Lowerer Q S) (schema : Schema) (assignment : Ast.Assignment Q) :
    Except FerriteError (Nat × Expr S) :=
  match schema.columnIndex assignment.column with
  | none => .error (.columnNotFound assignment.column)
  | some position => do
    let lowered ← lowerer.expr planner.formats assignment.value
    let coerced ← coerce planner.formats lowered (typeAt schema position)
    pure (position, coerced)

/-- The existing row followed by the one the insert would have written. -/
def conflictScope (source : TableSource) : Scope :=
  Scope.concat (Scope.forRelation source.schema [source.name]) (Scope.forRelation source.schema ["excluded"])

/-- The conflicting columns: those written out, or the first unique key on record. -/
def conflictTarget (source : TableSource) (clause : Ast.OnConflict Q) : Except FerriteError (List String) :=
  if clause.target.isEmpty then
    match (planner.indexesFor source.id).find? IndexDef.unique with
    | some index => .ok index.columns
    | none =>
      .error (.plan s!"no unique key is recorded on {source.name}, so ON CONFLICT has no target; write ON CONFLICT (columns) explicitly")
  else .ok clause.target

def conflictAction (source : TableSource) : Ast.InsertConflictAction Q → Except FerriteError (ConflictAction S)
  | .nothing => .ok .nothing
  | .update assignments selection => do
    let lowerer := { planner.lowerer with qualifiers := [source.name, "excluded"] }
    let lowered ← assignments.mapM (planner.assignment lowerer source.schema)
    let condition ← lowerer.option planner.formats selection
    -- bound early, so that an unresolvable column of `excluded` is a plan error
    let _ ← lowered.mapM fun (assignment : Nat × Expr S) =>
      (bindWith planner.formats (Subplans.refused : Subplans S P) (conflictScope source) assignment.2)
    pure (.update lowered condition)

def buildOnConflict (source : TableSource) : Option (Ast.OnConflict Q) → Except FerriteError (Option (OnConflict S))
  | none => .ok none
  | some clause => do
    let names ← planner.conflictTarget source clause
    let target ← positionsOf source.schema names
    let action ← planner.conflictAction source clause.action
    pure (some ⟨target, action⟩)

def insertTargets (schema : Schema) (columns : List String) : Except FerriteError (List Nat) :=
  if columns.isEmpty then .ok (List.range schema.columns.length) else positionsOf schema columns

def buildInsert (stmt : Ast.Insert Q) : Except FerriteError (LogicalPlan S) :=
  if stmt.returning.isEmpty then
    match stmt.source with
    | .query _ => .error (.plan "INSERT ... SELECT is not supported by the v1 planner")
    | .values values => do
      let source ← planner.resolve stmt.table none
      let targets ← insertTargets source.schema stmt.columns
      let rows ← values.mapM (planner.insertRow source targets)
      let onConflict ← planner.buildOnConflict source stmt.onConflict
      pure (.insert source rows onConflict)
  else .error (.plan "RETURNING is not supported by the v1 planner")

/-- The rows of one table a condition selects. -/
def filteredScan (source : TableSource) (lowerer : Lowerer Q S) :
    Option (Ast.Expr Q) → Except FerriteError (LogicalPlan S)
  | none => .ok (.scan source none)
  | some predicate => do
    let lowered ← lowerer.expr planner.formats predicate
    pure (.filter (.scan source none) lowered)

def buildUpdate (stmt : Ast.Update Q) : Except FerriteError (LogicalPlan S) :=
  if stmt.returning.isEmpty then do
    let source ← planner.resolve stmt.table stmt.aliasName
    let lowerer := planner.clauseLowerer source.qualifiers
    let assignments ← stmt.assignments.mapM (planner.assignment lowerer source.schema)
    let input ← planner.filteredScan source lowerer stmt.selection
    pure (.update source input assignments)
  else .error (.plan "RETURNING is not supported by the v1 planner")

def buildDelete (stmt : Ast.Delete Q) : Except FerriteError (LogicalPlan S) :=
  if stmt.returning.isEmpty then do
    let source ← planner.resolve stmt.table stmt.aliasName
    let input ← planner.filteredScan source (planner.clauseLowerer source.qualifiers) stmt.selection
    pure (.delete source input)
  else .error (.plan "RETURNING is not supported by the v1 planner")

def buildCall (stmt : Ast.Call Q) : Except FerriteError (LogicalPlan S) := do
  let args ← planner.lowerer.exprs planner.formats stmt.args
  pure (.call stmt.name.base args)

/-- The unoptimized translation of a statement. -/
def buildLogical [BEq S] : Ast.Statement Q → Except FerriteError (LogicalPlan S)
  | .query query => planner.buildSelect query
  | .insert stmt => planner.buildInsert stmt
  | .update stmt => planner.buildUpdate stmt
  | .delete stmt => planner.buildDelete stmt
  | .call stmt => planner.buildCall stmt
  | .createTable _ | .alterTable _ | .dropTable _ | .createIndex _ | .dropIndex _ =>
    .error (.plan "DDL does not go through the planner; call the catalog directly")
  | .begin | .commit | .rollback => .error (.plan "transaction control does not go through the planner")
  | .procedural =>
    .error (.plan "procedures and triggers are native Rust closures registered in ferrite-proc at startup; there is no procedural language in v1")

end

end Planner

end Ferrite.Plan
