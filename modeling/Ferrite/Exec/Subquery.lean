import Ferrite.Exec.Eval

/-!
# Subqueries

`ferrite-exec/src/subquery.rs`: before a plan runs, every `IN (SELECT ..)` in it is
replaced by the test its rows amount to. What a subquery's plan delivers is given.
-/

namespace Ferrite.Eval

open Plan

variable {P : Type}

/-- One halving of a list of tests. -/
def pairPhysTests : List (PhysExpr P) → List (PhysExpr P)
  | first :: second :: rest => .binary first .or second :: pairPhysTests rest
  | tests => tests

/-- Fold tests into one `OR` by halving. -/
def balancedPhysOr : Nat → List (PhysExpr P) → PhysExpr P
  | _, [] => .literal (.boolean false)
  | _, [test] => test
  | 0, test :: _ => test
  | rounds + 1, tests => balancedPhysOr rounds (pairPhysTests tests)

/-- `x IN (v1, v2, …)` as a balanced tree of equalities; over no values it is settled. -/
def valueTest (tested : PhysExpr P) (values : List Value) (negated : Bool) : PhysExpr P :=
  if values.isEmpty then .literal (.boolean negated)
  else
    let any := balancedPhysOr values.length (values.map fun value => .binary tested .eq (.literal value))
    if negated then .not any else any

section

variable (answers : P → List Value)

mutual

/-- Replace the subqueries of an expression by their tests. -/
def resolveExpr : PhysExpr P → PhysExpr P
  | .column position => .column position
  | .literal value => .literal value
  | .binary left op right => .binary (resolveExpr left) op (resolveExpr right)
  | .not inner => .not (resolveExpr inner)
  | .isNull inner => .isNull (resolveExpr inner)
  | .like expr pattern negated caseInsensitive =>
    .like (resolveExpr expr) (resolveExpr pattern) negated caseInsensitive
  | .caseWhen operand branches elseResult =>
    .caseWhen (resolveOption operand) (resolveBranches branches) (resolveOption elseResult)
  | .cast expr dataType => .cast (resolveExpr expr) dataType
  | .function func args => .function func (resolveArgs args)
  | .inSubquery expr subquery negated => valueTest (resolveExpr expr) (answers subquery) negated

def resolveOption : Option (PhysExpr P) → Option (PhysExpr P)
  | none => none
  | some expr => some (resolveExpr expr)

def resolveBranches : List (PhysExpr P × PhysExpr P) → List (PhysExpr P × PhysExpr P)
  | [] => []
  | (when, result) :: rest => (resolveExpr when, resolveExpr result) :: resolveBranches rest

def resolveArgs : List (PhysExpr P) → List (PhysExpr P)
  | [] => []
  | arg :: rest => resolveExpr arg :: resolveArgs rest

end

end

end Ferrite.Eval
