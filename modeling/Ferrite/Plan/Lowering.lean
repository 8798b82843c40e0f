import Ferrite.Logical.Fallible
import Ferrite.Plan.Build

/-!
# Lowering to physical plans

The other half of `ferrite-planner/src/planner.rs`: a logical plan becomes a physical
one, node by node. The scope travels back up with the plan, since a node binds its
expressions against the row its input produces. A scan picks an access path: the
first conjunct of the form `indexed_column = literal` selects an index, the others
stay as a residual filter.
-/

namespace Ferrite.Plan

open Sql Logical Scope
open Exec (uniqueKeysOf)

variable {Q S P : Type}

/-- A physical plan with the columns of the row it produces. -/
structure Lowered (P : Type) where
  plan : PhysicalPlan P
  scope : Scope

/-- The column and the literal of an equality between the two, in either order. -/
def columnEqualsLiteral : Expr S → Option (ColumnRef × Value)
  | .binary (.column reference) .eq (.literal value) => some (reference, value)
  | .binary (.literal value) .eq (.column reference) => some (reference, value)
  | _ => none

/-- The position and key of an index probe. A `NULL` key is never true, and a literal
that cannot be coerced stays an ordinary filter. -/
def indexEquality (formats : TextFormats) (scope : Scope) (expr : Expr S) : Option (Nat × Value) := do
  let (reference, value) ← columnEqualsLiteral expr
  if value.isNull then none
  else
    let position ← (scope.resolve reference).toOption
    let column ← (scope.column position).toOption
    let key ← (coerceLiteral formats value column.dataType).toOption
    some (position, key)

/-- Single-column indexes only; a unique one wins, and among equals the last. -/
def pickIndex (indexes : List IndexDef) (column : String) : Option IndexDef :=
  (indexes.filter fun index => index.columns == [column]).foldl (fun best index =>
      match best with
      | some current => if current.unique && !index.unique then some current else some index
      | none => some index)
    none

/-- An index probe and the conjuncts it leaves over. -/
structure IndexChoice (S : Type) where
  index : String
  column : Nat
  key : Value
  rest : List (Expr S)

/-- The probe a single conjunct allows. -/
def probeOf (formats : TextFormats) (indexes : List IndexDef) (schema : Schema) (scope : Scope) (expr : Expr S) :
    Option (String × Nat × Value) := do
  let (column, key) ← indexEquality formats scope expr
  let definition ← schema.columns[column]?
  let index ← pickIndex indexes definition.name
  some (index.name, column, key)

/-- The first conjunct that allows a probe. -/
def chooseIndex (formats : TextFormats) (indexes : List IndexDef) (schema : Schema) (scope : Scope) :
    List (Expr S) → Option (IndexChoice S)
  | [] => none
  | conjunct :: rest =>
    match probeOf formats indexes schema scope conjunct with
    | some (index, column, key) => some ⟨index, column, key, rest⟩
    | none =>
      (chooseIndex formats indexes schema scope rest).map fun choice =>
        { choice with rest := conjunct :: choice.rest }

namespace Planner

variable (planner : Planner Q S P)

def bindExpr (scope : Scope) (expr : Expr S) : Except FerriteError (PhysExpr P) :=
  bindWith planner.formats planner.subplans scope expr

/-- Bind where no subquery is allowed. -/
def bindPlain (scope : Scope) (expr : Expr S) : Except FerriteError (PhysExpr P) :=
  bindWith planner.formats Subplans.refused scope expr

def bindOptional (scope : Scope) : Option (Expr S) → Except FerriteError (Option (PhysExpr P))
  | none => .ok none
  | some expr => do
    let bound ← planner.bindExpr scope expr
    pure (some bound)

/-- Index or sequential scan. -/
def accessPath (source : TableSource) (filter : Option (Expr S)) (scope : Scope) :
    Except FerriteError (PhysicalPlan P) :=
  match chooseIndex planner.formats (planner.indexesFor source.id) source.schema scope (conjunctsOf filter) with
  | some choice => do
    let residual ← planner.bindOptional scope (combineConjunction choice.rest)
    pure (.indexScan source.id source.name source.schema choice.index choice.column (.literal choice.key) residual)
  | none => do
    let predicate ← planner.bindOptional scope (combineConjunction (conjunctsOf filter))
    pure (.seqScan source.id source.name source.schema predicate)

def lowerAggregateCall (scope : Scope) (call : AggregateCall S) : Except FerriteError (PhysAggregate P) := do
  let arg ← planner.bindOptional scope call.arg
  pure ⟨call.func, arg, call.distinct⟩

def lowerItem (scope : Scope) (item : ProjectionItem S) : Except FerriteError (PhysExpr P × ColumnDef) := do
  let bound ← planner.bindExpr scope item.expr
  let inferred ← infer scope item.expr
  pure (bound, ⟨item.outputName, inferred.1, inferred.2, none⟩)

def lowerKey (scope : Scope) (key : SortKey S) : Except FerriteError (PhysSortKey P) := do
  let bound ← planner.bindExpr scope key.expr
  pure ⟨bound, key.asc, key.nullsFirst⟩

/-- An assignment bound where no subquery is allowed. -/
def lowerAssignment (scope : Scope) (assignment : Nat × Expr S) : Except FerriteError (Nat × PhysExpr P) := do
  let bound ← planner.bindPlain scope assignment.2
  pure (assignment.1, bound)

def bindConflictAction (scope : Scope) : ConflictAction S → Except FerriteError (PhysConflictAction P)
  | .nothing => .ok .nothing
  | .update assignments selection => do
    let bound ← assignments.mapM (planner.lowerAssignment scope)
    let condition ← bindOption planner.formats Subplans.refused scope selection
    pure (.update bound condition)

def bindOnConflict (scope : Scope) : Option (OnConflict S) → Except FerriteError (Option (PhysOnConflict P))
  | none => .ok none
  | some clause => do
    let action ← planner.bindConflictAction scope clause.action
    pure (some ⟨clause.target, action⟩)

/-- An `UPDATE` or `DELETE` needs the rows' identities. -/
def rowIdentity (tableName : String) (lowered : Lowered P) : Except FerriteError (PhysicalPlan P) :=
  if lowered.plan.preservesRowIdentity then .ok lowered.plan
  else .error (.plan s!"UPDATE/DELETE on {tableName} needs a source that preserves row identity")

def lowerPlan : LogicalPlan S → Except FerriteError (Lowered P)
  | .scan source filter => do
    let plan ← planner.accessPath source filter source.scope
    pure ⟨plan, source.scope⟩
  | .join left right joinType on => do
    let left ← lowerPlan left
    let right ← lowerPlan right
    let scope := joinType.scope left.scope right.scope
    let predicate ← planner.bindOptional scope on
    pure ⟨.nestedLoopJoin left.plan right.plan joinType predicate scope.schema, scope⟩
  | .filter input predicate => do
    let input ← lowerPlan input
    let bound ← planner.bindExpr input.scope predicate
    pure ⟨.filter input.plan bound, input.scope⟩
  | .aggregate input groupBy aggregates => do
    let input ← lowerPlan input
    let output ← aggregateSchema groupBy aggregates input.scope
    let keys ← groupBy.mapM (planner.bindExpr input.scope)
    let calls ← aggregates.mapM (planner.lowerAggregateCall input.scope)
    pure ⟨.aggregate input.plan keys calls output, anonymous output⟩
  | .projection input items => do
    let input ← lowerPlan input
    let bound ← items.mapM (planner.lowerItem input.scope)
    let output : Schema := ⟨bound.map Prod.snd⟩
    pure ⟨.projection input.plan (bound.map Prod.fst) output, anonymous output⟩
  | .sort input keys => do
    let input ← lowerPlan input
    let bound ← keys.mapM (planner.lowerKey input.scope)
    pure ⟨.sort input.plan bound, input.scope⟩
  | .distinct input => do
    let input ← lowerPlan input
    pure ⟨.distinct input.plan, input.scope⟩
  | .limit input count offset => do
    let input ← lowerPlan input
    pure ⟨.limit input.plan count offset, input.scope⟩
  | .insert source rows onConflict => do
    let bound ← rows.mapM (·.mapM (planner.bindPlain empty))
    let clause ← planner.bindOnConflict (conflictScope source) onConflict
    let unique := uniqueKeysOf source.schema (planner.indexesFor source.id)
    pure ⟨.insert source.id source.name source.schema bound clause unique, empty⟩
  | .update source input assignments => do
    let input ← lowerPlan input
    let rows ← rowIdentity source.name input
    let bound ← assignments.mapM (planner.lowerAssignment source.scope)
    let unique := uniqueKeysOf source.schema (planner.indexesFor source.id)
    pure ⟨.update source.id source.name source.schema rows bound unique, empty⟩
  | .delete source input => do
    let input ← lowerPlan input
    let rows ← rowIdentity source.name input
    pure ⟨.delete source.id source.name source.schema rows, empty⟩
  | .call name args => do
    let bound ← args.mapM (planner.bindPlain empty)
    pure ⟨.callProcedure name bound, empty⟩

def toPhysical (plan : LogicalPlan S) : Except FerriteError (PhysicalPlan P) := Lowered.plan <$> planner.lowerPlan plan

/-! ## What a lowered plan consists of -/

section

variable {planner} {lowered : Lowered P}

private theorem lowerPlan_scan {source : TableSource} {filter : Option (Expr S)} :
    planner.lowerPlan (.scan source filter) = .ok lowered ↔
      ∃ plan, planner.accessPath source filter source.scope = .ok plan ∧ ⟨plan, source.scope⟩ = lowered := by
  simp [lowerPlan, bind_eq_ok, pure, Except.pure]

theorem lowerPlan_join {left right : LogicalPlan S} {joinType : JoinType} {on : Option (Expr S)} :
    planner.lowerPlan (.join left right joinType on) = .ok lowered ↔
      ∃ leftLowered, planner.lowerPlan left = .ok leftLowered ∧
        ∃ rightLowered, planner.lowerPlan right = .ok rightLowered ∧
          ∃ predicate, planner.bindOptional (joinType.scope leftLowered.scope rightLowered.scope) on = .ok predicate ∧
            ⟨.nestedLoopJoin leftLowered.plan rightLowered.plan joinType predicate
                (joinType.scope leftLowered.scope rightLowered.scope).schema,
              joinType.scope leftLowered.scope rightLowered.scope⟩ = lowered := by
  simp [lowerPlan, bind_eq_ok, pure, Except.pure]

private theorem lowerPlan_filter {input : LogicalPlan S} {predicate : Expr S} :
    planner.lowerPlan (.filter input predicate) = .ok lowered ↔
      ∃ inputLowered, planner.lowerPlan input = .ok inputLowered ∧
        ∃ bound, planner.bindExpr inputLowered.scope predicate = .ok bound ∧
          ⟨.filter inputLowered.plan bound, inputLowered.scope⟩ = lowered := by
  simp [lowerPlan, bind_eq_ok, pure, Except.pure]

@[simp] theorem len_joinScope (joinType : JoinType) (left right : Scope) :
    (joinType.scope left right).len = left.len + right.len := by
  rw [JoinType.scope, len_concat]
  split <;> split <;> simp

private theorem outputSchema_accessPath {source : TableSource} {filter : Option (Expr S)} {scope : Scope}
    {plan : PhysicalPlan P} (chosen : planner.accessPath source filter scope = .ok plan) :
    plan.outputSchema = some source.schema := by
  rw [accessPath] at chosen
  split at chosen
  all_goals
    obtain ⟨bound, _, built⟩ := bind_eq_ok.mp chosen
    cases built
    rfl

/-- The output schema of a lowered plan has the columns of its scope. -/
theorem length_outputSchema {plan : LogicalPlan S} (lower : planner.lowerPlan plan = .ok lowered) {schema : Schema}
    (output : lowered.plan.outputSchema = some schema) : schema.columns.length = lowered.scope.len := by
  induction plan generalizing lowered schema with
  | scan source filter =>
    obtain ⟨plan, chosen, rfl⟩ := lowerPlan_scan.mp lower
    rw [outputSchema_accessPath chosen] at output
    cases output
    simp [TableSource.scope]
  | join left right joinType on =>
    obtain ⟨leftLowered, _, rightLowered, _, predicate, _, rfl⟩ := lowerPlan_join.mp lower
    cases output
    simp
  | filter input predicate ih =>
    obtain ⟨inputLowered, inputLower, bound, _, rfl⟩ := lowerPlan_filter.mp lower
    exact ih inputLower output
  | aggregate input groupBy aggregates =>
    simp only [lowerPlan, bind_eq_ok, pure, Except.pure] at lower
    obtain ⟨_, _, schema, _, _, _, _, _, built⟩ := lower
    cases built
    cases output
    simp [anonymous]
  | projection input items =>
    simp only [lowerPlan, bind_eq_ok, pure, Except.pure] at lower
    obtain ⟨_, _, bound, _, built⟩ := lower
    cases built
    cases output
    simp [anonymous]
  | sort input keys ih =>
    simp only [lowerPlan, bind_eq_ok, pure, Except.pure] at lower
    obtain ⟨_, inputLower, _, _, built⟩ := lower
    cases built
    exact ih inputLower output
  | distinct input ih =>
    simp only [lowerPlan, bind_eq_ok, pure, Except.pure] at lower
    obtain ⟨_, inputLower, built⟩ := lower
    cases built
    exact ih inputLower output
  | limit input count offset ih =>
    simp only [lowerPlan, bind_eq_ok, pure, Except.pure] at lower
    obtain ⟨_, inputLower, built⟩ := lower
    cases built
    exact ih inputLower output
  | insert source rows onConflict =>
    simp only [lowerPlan, bind_eq_ok, pure, Except.pure] at lower
    obtain ⟨_, _, _, _, built⟩ := lower
    cases built
    cases output
  | update source input assignments =>
    simp only [lowerPlan, bind_eq_ok, pure, Except.pure] at lower
    obtain ⟨_, _, _, _, _, _, built⟩ := lower
    cases built
    cases output
  | delete source input =>
    simp only [lowerPlan, bind_eq_ok, pure, Except.pure] at lower
    obtain ⟨_, _, _, _, built⟩ := lower
    cases built
    cases output
  | call name args =>
    simp only [lowerPlan, bind_eq_ok, pure, Except.pure] at lower
    obtain ⟨_, _, built⟩ := lower
    cases built
    cases output

end

/-- The whole pipeline: build, optimize, lower. -/
def plan [BEq Q] [BEq S] (stmt : Ast.Statement Q) : Except FerriteError (PhysicalPlan P) := do
  let logical ← planner.buildLogical stmt
  planner.toPhysical (optimize logical)

end Planner

end Ferrite.Plan
