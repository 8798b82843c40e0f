import Ferrite.Exec.Subquery
import Ferrite.Logical.Fallible

/-!
# Truth values

The three-valued `AND` and `OR`, how `AND` is evaluated from left to right, and what an
expression of the planner means: the value of the expression it is bound to, its subqueries
answered.
-/

namespace Ferrite.Eval

open Sql Plan Logical

variable {S P : Type}

/-- What gives an expression of the planner its meaning. -/
structure Interpretation (S P : Type) where
  formats : TextFormats
  subplans : Subplans S P
  answers : P → List Value
  runtime : Runtime

/-- The three-valued `AND`. -/
def both : Option Bool → Option Bool → Option Bool
  | some false, _ => some false
  | _, some false => some false
  | some true, some true => some true
  | _, _ => none

/-- The three-valued `OR`. -/
def either : Option Bool → Option Bool → Option Bool
  | some true, _ => some true
  | _, some true => some true
  | some false, some false => some false
  | _, _ => none

/-- `AND` over truth values: the right one is not asked for once the left is false. -/
def shortAnd (left right : Except FerriteError (Option Bool)) : Except FerriteError (Option Bool) := do
  let leftTruth ← left
  if leftTruth = some false then .ok (some false)
  else do
    let rightTruth ← right
    pure (both leftTruth rightTruth)

def ofTruth : Option Bool → Value
  | none => .null
  | some truth => .boolean truth

@[simp] theorem asBool_ofTruth (truth : Option Bool) : asBool (ofTruth truth) = .ok truth := by
  cases truth <;> rfl

theorem conjunction_eq (left : Option Bool) (right : Except FerriteError Value) :
    conjunction left right = ofTruth <$> shortAnd (.ok left) (right >>= asBool) := by
  cases right with
  | error e => rcases left with _ | _ | _ <;> rfl
  | ok value =>
    rw [ok_bind, shortAnd, ok_bind, conjunction.eq_def]
    split
    · rfl
    · rename_i notFalse
      rw [if_neg notFalse, ok_bind]
      cases asBool value with
      | error e => rfl
      | ok right =>
        rcases left with _ | _ | _ <;> rcases right with _ | _ | _ <;> first | rfl | exact absurd rfl notFalse

namespace Interpretation

variable (interpretation : Interpretation S P) (scope : Scope) (row : Row)

def bindExpr (expr : Expr S) : Except FerriteError (PhysExpr P) :=
  bindWith interpretation.formats interpretation.subplans scope expr

/-- The value of an expression on a row. -/
def value (expr : Expr S) : Except FerriteError Value := do
  let bound ← interpretation.bindExpr scope expr
  eval interpretation.runtime row (resolveExpr interpretation.answers bound)

end Interpretation

end Ferrite.Eval
