import Ferrite.Plan.Logical

/-!
# Physical plans

`ferrite-planner/src/physical.rs`: expressions with every column resolved to a
position, the inference of types and nullability, and the nodes the executor runs.
How a subquery's plan is lowered is handed in, as the planner does.
-/

namespace Ferrite.Plan

open Sql

variable {S P : Type}

/-- An expression over the positions of its input row. -/
inductive PhysExpr (P : Type) where
  | column (position : Nat)
  | literal (value : Value)
  | binary (left : PhysExpr P) (op : BinaryOp) (right : PhysExpr P)
  | not (inner : PhysExpr P)
  | isNull (inner : PhysExpr P)
  | like (expr pattern : PhysExpr P) (negated caseInsensitive : Bool)
  | caseWhen (operand : Option (PhysExpr P)) (branches : List (PhysExpr P × PhysExpr P))
      (elseResult : Option (PhysExpr P))
  | cast (expr : PhysExpr P) (dataType : DataType)
  | function (func : ScalarFunc) (args : List (PhysExpr P))
  | inSubquery (expr : PhysExpr P) (subquery : P) (negated : Bool)

/-- How a subquery's plan is lowered, and how many columns it then selects. -/
structure Subplans (S P : Type) where
  lower : S → Except FerriteError P
  width : P → Nat

/-! ## Binding -/

/-- The column a reference resolves to. -/
def Scope.referenced (scope : Scope) (reference : ColumnRef) : Except FerriteError ColumnDef := do
  let position ← scope.resolve reference
  scope.column position

/-- A literal compared against a column is given the column's type. -/
def comparisonTarget (scope : Scope) : Expr S → Expr S → Except FerriteError (Option DataType)
  | .column reference, .literal _ => do
    let column ← scope.referenced reference
    pure (some column.dataType)
  | .literal _, .column reference => do
    let column ← scope.referenced reference
    pure (some column.dataType)
  | _, _ => .ok none

def coercePhysLiteral (formats : TextFormats) (target : DataType) : PhysExpr P → Except FerriteError (PhysExpr P)
  | .literal value => PhysExpr.literal <$> coerceLiteral formats value target
  | other => .ok other

/-- The two sides of an operator, coerced when they have to be. -/
def alignOperands (formats : TextFormats) (target : Option DataType) (left : PhysExpr P) (op : BinaryOp)
    (right : PhysExpr P) : Except FerriteError (PhysExpr P) :=
  match target with
  | none => .ok (.binary left op right)
  | some target => do
    let left ← coercePhysLiteral formats target left
    let right ← coercePhysLiteral formats target right
    pure (.binary left op right)

/-- Only a comparison aligns its operands. -/
def operandTarget (scope : Scope) (left : Expr S) (op : BinaryOp) (right : Expr S) :
    Except FerriteError (Option DataType) :=
  if op.isComparison then comparisonTarget scope left right else .ok none

/-- `x IN (SELECT ..)` compares one value against one column. -/
def boundSubquery (subplans : Subplans S P) (subquery : S) : Except FerriteError P := do
  let plan ← subplans.lower subquery
  if subplans.width plan ≠ 1 then
    .error (.plan s!"the subquery of IN must select exactly one column, not {subplans.width plan}")
  else .ok plan

section

variable (formats : TextFormats) (subplans : Subplans S P) (scope : Scope)

mutual

/-- Resolve the columns of an expression against a scope. -/
def bindWith : Expr S → Except FerriteError (PhysExpr P)
  | .column reference => do
    let position ← scope.resolve reference
    pure (.column position)
  | .slot position => do
    let _ ← scope.column position
    pure (.column position)
  | .literal value => .ok (.literal value)
  | .binary left op right => do
    let target ← operandTarget scope left op right
    let boundLeft ← bindWith left
    let boundRight ← bindWith right
    alignOperands formats target boundLeft op boundRight
  | .not inner => do
    let bound ← bindWith inner
    pure (.not bound)
  | .isNull inner => do
    let bound ← bindWith inner
    pure (.isNull bound)
  | .like expr pattern negated caseInsensitive => do
    let boundExpr ← bindWith expr
    let boundPattern ← bindWith pattern
    pure (.like boundExpr boundPattern negated caseInsensitive)
  | .caseWhen operand branches elseResult => do
    let boundOperand ← bindOption operand
    let boundBranches ← bindBranches branches
    let boundElse ← bindOption elseResult
    pure (.caseWhen boundOperand boundBranches boundElse)
  | .cast expr dataType => do
    let bound ← bindWith expr
    pure (.cast bound dataType)
  | .function func args => do
    let bound ← bindArgs args
    pure (.function func bound)
  | .inSubquery expr subquery negated => do
    let plan ← boundSubquery subplans subquery
    let bound ← bindWith expr
    pure (.inSubquery bound plan negated)

def bindOption : Option (Expr S) → Except FerriteError (Option (PhysExpr P))
  | none => .ok none
  | some expr => do
    let bound ← bindWith expr
    pure (some bound)

def bindBranches : List (Expr S × Expr S) → Except FerriteError (List (PhysExpr P × PhysExpr P))
  | [] => .ok []
  | (when, result) :: rest => do
    let boundWhen ← bindWith when
    let boundResult ← bindWith result
    let boundRest ← bindBranches rest
    pure ((boundWhen, boundResult) :: boundRest)

def bindArgs : List (Expr S) → Except FerriteError (List (PhysExpr P))
  | [] => .ok []
  | arg :: rest => do
    let bound ← bindWith arg
    let boundRest ← bindArgs rest
    pure (bound :: boundRest)

end

end

/-- Where no subquery is allowed. -/
def Subplans.refused : Subplans S P where
  lower _ := .error (.plan "a subquery is not allowed here")
  width _ := 0

/-! ## Types -/

def numericRank : DataType → Option Nat
  | .int4 => some 0
  | .int8 => some 1
  | .float8 => some 2
  | _ => none

/-- The wider of two numeric types. -/
def numericResult (left right : DataType) (op : BinaryOp) : Except FerriteError DataType :=
  match numericRank left, numericRank right with
  | some leftRank, some rightRank => if rightRank ≤ leftRank then .ok left else .ok right
  | _, _ => .error (.plan s!"{op.debug} is not defined for {debugType left} and {debugType right}")

/-- The type of an operator's result. -/
def inferBinary (op : BinaryOp) (left right : DataType × Bool) : Except FerriteError (DataType × Bool) :=
  if op = .concat then .ok (.text, left.2 || right.2)
  else do
    let dataType ← numericResult left.1 right.1 op
    pure (dataType, left.2 || right.2)

/-- The type of the first entry, `Text` without one. -/
def firstType (inferred : List (DataType × Bool)) : DataType := (inferred.head?.map Prod.fst).getD .text

/-- `coalesce` is null only when every argument is. -/
def inferFunction (func : ScalarFunc) (inferred : List (DataType × Bool)) : DataType × Bool :=
  (func.resultType (firstType inferred),
    if func.isNullPreserving then inferred.any Prod.snd else inferred.all Prod.snd)

/-- A `CASE` with no `ELSE` yields null when nothing matches. -/
def inferCase (inferred : List (DataType × Bool)) (elseInferred : Option (DataType × Bool)) : DataType × Bool :=
  (firstType inferred, !(elseInferred.any fun inferred => !inferred.2) || inferred.any Prod.snd)

section

variable (scope : Scope)

mutual

/-- The type and nullability an expression produces over a scope. -/
def infer : Expr S → Except FerriteError (DataType × Bool)
  | .column reference => do
    let column ← scope.referenced reference
    pure (column.dataType, column.nullable)
  | .slot position => do
    let column ← scope.column position
    pure (column.dataType, column.nullable)
  | .literal value => .ok (value.dataType.getD .text, value.isNull)
  | .not _ | .isNull _ | .like _ _ _ _ | .inSubquery _ _ _ => .ok (.boolean, true)
  | .cast _ dataType => .ok (dataType, true)
  | .function func args => do
    let inferred ← inferArgs args
    pure (inferFunction func inferred)
  | .caseWhen _ branches elseResult => do
    let inferred ← inferBranches branches
    let elseInferred ← inferOption elseResult
    pure (inferCase inferred elseInferred)
  | .binary left op right =>
    if op.isArithmetic then do
      let leftType ← infer left
      let rightType ← infer right
      inferBinary op leftType rightType
    else .ok (.boolean, true)

def inferOption : Option (Expr S) → Except FerriteError (Option (DataType × Bool))
  | none => .ok none
  | some expr => do
    let inferred ← infer expr
    pure (some inferred)

/-- Only the results of a `CASE` decide its type. -/
def inferBranches : List (Expr S × Expr S) → Except FerriteError (List (DataType × Bool))
  | [] => .ok []
  | (_, result) :: rest => do
    let inferred ← infer result
    let others ← inferBranches rest
    pure (inferred :: others)

def inferArgs : List (Expr S) → Except FerriteError (List (DataType × Bool))
  | [] => .ok []
  | arg :: rest => do
    let inferred ← infer arg
    let others ← inferArgs rest
    pure (inferred :: others)

end

end

/-- The derived `Debug` of an aggregate's inferred argument. -/
def debugArgument : Option (DataType × Bool) → String
  | none => "None"
  | some (dataType, nullable) => s!"Some(({debugType dataType}, {nullable}))"

/-- The type and nullability of an aggregate. -/
def aggregateType (func : AggregateFunc) (arg : Option (DataType × Bool)) : Except FerriteError (DataType × Bool) :=
  match func, arg with
  | .count, _ => .ok (.int8, false)
  | .avg, some (.int4, _) | .avg, some (.int8, _) | .avg, some (.float8, _) => .ok (.float8, true)
  | .sum, some (.int4, _) | .sum, some (.int8, _) => .ok (.int8, true)
  | .sum, some (.float8, _) => .ok (.float8, true)
  | .min, some (dataType, _) | .max, some (dataType, _) => .ok (dataType, true)
  | func, arg => .error (.plan s!"{func.name}() is not defined for {debugArgument arg}")

def aggregateColumn (func : AggregateFunc) (arg : Option (DataType × Bool)) : Except FerriteError ColumnDef := do
  let inferred ← aggregateType func arg
  pure ⟨func.name, inferred.1, inferred.2, none⟩

/-- What a group key's column is called. -/
def groupKeyName : Expr S → String
  | .column reference => reference.name
  | _ => "?column?"

def groupKeyColumn (scope : Scope) (key : Expr S) : Except FerriteError ColumnDef := do
  let inferred ← infer scope key
  pure ⟨groupKeyName key, inferred.1, inferred.2, none⟩

def aggregateCallColumn (scope : Scope) (call : AggregateCall S) : Except FerriteError ColumnDef := do
  let arg ← inferOption scope call.arg
  aggregateColumn call.func arg

/-- The row an aggregate node produces: the group keys, then one column per aggregate. -/
def aggregateSchema (groupBy : List (Expr S)) (aggregates : List (AggregateCall S)) (input : Scope) :
    Except FerriteError Schema := do
  let keys ← groupBy.mapM (groupKeyColumn input)
  let calls ← aggregates.mapM (aggregateCallColumn input)
  pure ⟨keys ++ calls⟩

/-! ## Plans -/

structure PhysAggregate (P : Type) where
  func : AggregateFunc
  arg : Option (PhysExpr P)
  distinct : Bool

/-- Bound against the existing row followed by the excluded row. -/
inductive PhysConflictAction (P : Type) where
  | nothing
  | update (assignments : List (Nat × PhysExpr P)) (selection : Option (PhysExpr P))

structure PhysOnConflict (P : Type) where
  target : List Nat
  action : PhysConflictAction P

structure PhysSortKey (P : Type) where
  expr : PhysExpr P
  asc : Bool
  nullsFirst : Bool

inductive PhysicalPlan (P : Type) where
  | seqScan (table : TableId) (tableName : String) (schema : Schema) (filter : Option (PhysExpr P))
  | indexScan (table : TableId) (tableName : String) (schema : Schema) (index : String) (column : Nat)
      (key : PhysExpr P) (residual : Option (PhysExpr P))
  | nestedLoopJoin (left right : PhysicalPlan P) (joinType : JoinType) (predicate : Option (PhysExpr P))
      (output : Schema)
  | filter (input : PhysicalPlan P) (predicate : PhysExpr P)
  | aggregate (input : PhysicalPlan P) (groupBy : List (PhysExpr P)) (aggregates : List (PhysAggregate P))
      (output : Schema)
  | projection (input : PhysicalPlan P) (exprs : List (PhysExpr P)) (output : Schema)
  | sort (input : PhysicalPlan P) (keys : List (PhysSortKey P))
  | distinct (input : PhysicalPlan P)
  | limit (input : PhysicalPlan P) (count : Option Nat) (offset : Nat)
  | insert (table : TableId) (tableName : String) (schema : Schema) (rows : List (List (PhysExpr P)))
      (onConflict : Option (PhysOnConflict P)) (unique : List UniqueKey)
  | update (table : TableId) (tableName : String) (schema : Schema) (source : PhysicalPlan P)
      (assignments : List (Nat × PhysExpr P)) (unique : List UniqueKey)
  | delete (table : TableId) (tableName : String) (schema : Schema) (source : PhysicalPlan P)
  | callProcedure (name : String) (args : List (PhysExpr P))

namespace PhysicalPlan

/-- The shape of the rows a node produces; statement roots produce none. -/
def outputSchema : PhysicalPlan P → Option Schema
  | .seqScan _ _ schema _ | .indexScan _ _ schema _ _ _ _ => some schema
  | .nestedLoopJoin _ _ _ _ output | .aggregate _ _ _ output | .projection _ _ output => some output
  | .filter input _ | .sort input _ | .distinct input | .limit input _ _ => input.outputSchema
  | .insert _ _ _ _ _ _ | .update _ _ _ _ _ _ | .delete _ _ _ _ | .callProcedure _ _ => none

/-- A scan or a chain of filters over one. -/
def preservesRowIdentity : PhysicalPlan P → Bool
  | .seqScan _ _ _ _ | .indexScan _ _ _ _ _ _ _ => true
  | .filter input _ => input.preservesRowIdentity
  | _ => false

end PhysicalPlan

end Ferrite.Plan
