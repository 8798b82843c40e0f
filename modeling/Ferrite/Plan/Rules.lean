import Ferrite.Plan.Logical

/-!
# Predicate pushdown

`ferrite-planner/src/rules.rs`. Conjuncts collected from filters sink through the
plan until they reach a scan or a node they cannot cross. At a join a conjunct that
belongs to one side sinks into it, unless the join type forbids that: a conjunct of
`WHERE` may not enter a null-extended side, a conjunct of `ON` may not enter a
preserved one.
-/

namespace Ferrite.Plan

variable {S : Type}

inductive Side where
  | left
  | right
deriving DecidableEq

/-- The side of a join a conjunct belongs to, when it belongs to exactly one. Without
references it belongs to neither. -/
def side (expr : Expr S) (left right : Scope) : Option Side :=
  let references := expr.referencedColumns
  if references.isEmpty then none
  else if references.all left.canResolve && !references.any right.canResolve then some .left
  else if references.all right.canResolve && !references.any left.canResolve then some .right
  else none

/-- Where a conjunct goes at a join. -/
inductive Place where
  | toLeft
  | toRight
  | condition
  | above
deriving DecidableEq

/-- A conjunct from above the join. -/
def placePending (left right : Scope) (joinType : JoinType) (conjunct : Expr S) : Place :=
  match side conjunct left right with
  | some .left =>
    if !joinType.preservesRight then .toLeft else if joinType.isInner then .condition else .above
  | some .right =>
    if !joinType.preservesLeft then .toRight else if joinType.isInner then .condition else .above
  | none => if joinType.isInner then .condition else .above

/-- A conjunct of the join's own `ON`. -/
def placeOn (left right : Scope) (joinType : JoinType) (conjunct : Expr S) : Place :=
  match side conjunct left right with
  | some .left => if !joinType.preservesLeft then .toLeft else .condition
  | some .right => if !joinType.preservesRight then .toRight else .condition
  | none => .condition

/-- The conjuncts that end up in one place, those from above first. -/
def placed (left right : Scope) (joinType : JoinType) (on : Option (Expr S)) (pending : List (Expr S))
    (place : Place) : List (Expr S) :=
  pending.filter (fun conjunct => placePending left right joinType conjunct = place) ++
    (conjunctsOf on).filter fun conjunct => placeOn left right joinType conjunct = place

/-- Conjuncts that cannot sink further become a filter. -/
def materialize (plan : LogicalPlan S) (pending : List (Expr S)) : LogicalPlan S :=
  match combineConjunction pending with
  | none => plan
  | some predicate => .filter plan predicate

def isColumn : Expr S → Bool
  | .column _ => true
  | _ => false

/-- Every item is a bare column. -/
def isTransparent (items : List (ProjectionItem S)) : Bool := items.all fun item => isColumn item.expr

def pushPredicates : LogicalPlan S → List (Expr S) → LogicalPlan S
  | .filter input predicate, pending => pushPredicates input (pending ++ splitConjunction predicate)
  | .scan source filter, pending => .scan source (combineConjunction (conjunctsOf filter ++ pending))
  | .join left right joinType on, pending =>
    match left.scope, right.scope with
    | some leftScope, some rightScope =>
      let parts := placed leftScope rightScope joinType on pending
      materialize (.join (pushPredicates left (parts .toLeft)) (pushPredicates right (parts .toRight)) joinType
          (combineConjunction (parts .condition)))
        (parts .above)
    | _, _ => materialize (.join (pushPredicates left []) (pushPredicates right []) joinType on) pending
  | .projection input items, pending =>
    if isTransparent items then .projection (pushPredicates input pending) items
    else materialize (.projection (pushPredicates input []) items) pending
  | .sort input keys, pending => .sort (pushPredicates input pending) keys
  | .aggregate input groupBy aggregates, pending =>
    materialize (.aggregate (pushPredicates input []) groupBy aggregates) pending
  | .distinct input, pending => materialize (.distinct (pushPredicates input [])) pending
  | .limit input count offset, pending => materialize (.limit (pushPredicates input []) count offset) pending
  | .update source input assignments, pending => .update source (pushPredicates input pending) assignments
  | .delete source input, pending => .delete source (pushPredicates input pending)
  | .insert source rows onConflict, pending => materialize (.insert source rows onConflict) pending
  | .call name args, pending => materialize (.call name args) pending

/-- Run every rule once. -/
def optimize (plan : LogicalPlan S) : LogicalPlan S := pushPredicates plan []

end Ferrite.Plan
