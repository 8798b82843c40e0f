import Ferrite.Plan.Scope

/-!
# Logical plans

`ferrite-planner/src/logical.rs`: relational algebra over resolved tables, still in
terms of column names.
-/

namespace Ferrite.Plan

/-- Which table a scan reads. -/
structure TableSource where
  id : TableId
  name : String
  aliasName : Option String
  schema : Schema
deriving DecidableEq

/-- The names a reference may use for the relation; an alias does not hide the name. -/
def TableSource.qualifiers (source : TableSource) : List String := source.name :: source.aliasName.toList

/-- The columns of the relation under all its names. -/
def TableSource.scope (source : TableSource) : Scope := Scope.forRelation source.schema source.qualifiers

inductive JoinType where
  | inner
  | left
  | right
  | full
  | cross
deriving DecidableEq

namespace JoinType

/-- A left row without a match survives. -/
def preservesLeft (joinType : JoinType) : Bool := joinType = .left || joinType = .full

/-- A right row without a match survives. -/
def preservesRight (joinType : JoinType) : Bool := joinType = .right || joinType = .full

/-- Neither side is preserved. -/
def isInner (joinType : JoinType) : Bool := joinType = .inner || joinType = .cross

/-- The row a join produces; the null-extended sides become nullable. -/
def scope (joinType : JoinType) (left right : Scope) : Scope :=
  Scope.concat (if joinType.preservesRight then left.nullable else left)
    (if joinType.preservesLeft then right.nullable else right)

end JoinType

structure SortKey (S : Type) where
  expr : Expr S
  asc : Bool
  nullsFirst : Bool

structure ProjectionItem (S : Type) where
  expr : Expr S
  outputName : String

/-- What to do with a row that collides with an existing one. -/
inductive ConflictAction (S : Type) where
  | nothing
  | update (assignments : List (Nat × Expr S)) (selection : Option (Expr S))

/-- The target columns decide whether two rows collide. -/
structure OnConflict (S : Type) where
  target : List Nat
  action : ConflictAction S

inductive LogicalPlan (S : Type) where
  | scan (source : TableSource) (filter : Option (Expr S))
  | join (left right : LogicalPlan S) (joinType : JoinType) (on : Option (Expr S))
  | filter (input : LogicalPlan S) (predicate : Expr S)
  | aggregate (input : LogicalPlan S) (groupBy : List (Expr S)) (aggregates : List (AggregateCall S))
  | projection (input : LogicalPlan S) (items : List (ProjectionItem S))
  | sort (input : LogicalPlan S) (keys : List (SortKey S))
  | distinct (input : LogicalPlan S)
  | limit (input : LogicalPlan S) (count : Option Nat) (offset : Nat)
  | insert (source : TableSource) (rows : List (List (Expr S))) (onConflict : Option (OnConflict S))
  | update (source : TableSource) (input : LogicalPlan S) (assignments : List (Nat × Expr S))
  | delete (source : TableSource) (input : LogicalPlan S)
  | call (name : String) (args : List (Expr S))

variable {S : Type}

/-- The names a predicate directly above this node may use; nodes that reshape their
output have none. -/
def LogicalPlan.scope : LogicalPlan S → Option Scope
  | .scan source _ => some source.scope
  | .join left right joinType _ =>
    match left.scope, right.scope with
    | some leftScope, some rightScope => some (joinType.scope leftScope rightScope)
    | _, _ => none
  | .filter input _ | .sort input _ | .distinct input | .limit input _ _ => input.scope
  | _ => none

/-- Break `a AND b AND c` into its conjuncts. -/
def splitConjunction : Expr S → List (Expr S)
  | .binary left .and right => splitConjunction left ++ splitConjunction right
  | other => [other]

/-- The conjuncts of an optional predicate. -/
def conjunctsOf : Option (Expr S) → List (Expr S)
  | none => []
  | some predicate => splitConjunction predicate

/-- Put conjuncts together again, leaning left. -/
def combineConjunction : List (Expr S) → Option (Expr S)
  | [] => none
  | first :: rest => some (rest.foldl Expr.and first)

end Ferrite.Plan
