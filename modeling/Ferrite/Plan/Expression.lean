import Ferrite.Sql.Definition

/-!
# The planner's expressions

`ferrite-planner/src/expr.rs` and `scalar.rs`: scalar expressions over column
references and literals, and the closed set of functions the executor knows. A
subquery is held by its plan; `S` stands for whatever represents that plan, since
nothing that walks an expression looks inside it.
-/

namespace Ferrite.Plan

/-- A column, optionally qualified by a relation name or alias. -/
structure ColumnRef where
  qualifier : Option String
  name : String
deriving DecidableEq

/-- How an error names the reference. -/
def ColumnRef.display (reference : ColumnRef) : String :=
  match reference.qualifier with
  | some qualifier => s!"{qualifier}.{reference.name}"
  | none => reference.name

inductive BinaryOp where
  | eq
  | notEq
  | lt
  | ltEq
  | gt
  | gtEq
  | and
  | or
  | plus
  | minus
  | multiply
  | divide
  | modulo
  | concat
deriving DecidableEq

namespace BinaryOp

def isComparison : BinaryOp → Bool
  | .eq | .notEq | .lt | .ltEq | .gt | .gtEq => true
  | _ => false

/-- The operators the three-valued logic does not apply to. -/
def isArithmetic : BinaryOp → Bool
  | .plus | .minus | .multiply | .divide | .modulo | .concat => true
  | _ => false

def debug : BinaryOp → String
  | .eq => "Eq"
  | .notEq => "NotEq"
  | .lt => "Lt"
  | .ltEq => "LtEq"
  | .gt => "Gt"
  | .gtEq => "GtEq"
  | .and => "And"
  | .or => "Or"
  | .plus => "Plus"
  | .minus => "Minus"
  | .multiply => "Multiply"
  | .divide => "Divide"
  | .modulo => "Modulo"
  | .concat => "Concat"

end BinaryOp

/-- The functions evaluated per row. -/
inductive ScalarFunc where
  | coalesce
  | lower
  | upper
  | nocase
  | substr
  | hex
  | randomblob
  | datetime
  | date
deriving DecidableEq

namespace ScalarFunc

def parse : String → Option ScalarFunc
  | "coalesce" => some .coalesce
  | "lower" => some .lower
  | "upper" => some .upper
  | "nocase" => some .nocase
  | "substr" | "substring" => some .substr
  | "hex" => some .hex
  | "randomblob" => some .randomblob
  | "datetime" => some .datetime
  | "date" => some .date
  | _ => none

def name : ScalarFunc → String
  | .coalesce => "coalesce"
  | .lower => "lower"
  | .upper => "upper"
  | .nocase => "nocase"
  | .substr => "substr"
  | .hex => "hex"
  | .randomblob => "randomblob"
  | .datetime => "datetime"
  | .date => "date"

/-- How many arguments are allowed; no upper bound for a variadic function. -/
def arity : ScalarFunc → Nat × Option Nat
  | .coalesce | .datetime | .date => (1, none)
  | .substr => (2, some 3)
  | _ => (1, some 1)

/-- What an arity error says the function takes. -/
def arityText : Nat × Option Nat → String
  | (min, some max) => if min = max then s!"{min} argument(s)" else s!"{min} to {max} arguments"
  | (min, none) => s!"at least {min} argument(s)"

def checkArity (func : ScalarFunc) (given : Nat) : Except FerriteError Unit :=
  if given < func.arity.1 || func.arity.2.any (· < given) then
    .error (.plan s!"{func.name}() takes {arityText func.arity}, not {given}")
  else .ok ()

/-- `coalesce` and `nocase` take the type of their first argument. -/
def resultType (func : ScalarFunc) (firstArg : DataType) : DataType :=
  match func with
  | .coalesce | .nocase => firstArg
  | .lower | .upper | .substr | .hex | .randomblob | .datetime | .date => .text

/-- Only `coalesce` narrows nullability. -/
def isNullPreserving (func : ScalarFunc) : Bool := func ≠ .coalesce

end ScalarFunc

inductive AggregateFunc where
  | count
  | sum
  | avg
  | min
  | max
deriving DecidableEq

namespace AggregateFunc

def parse : String → Option AggregateFunc
  | "count" => some .count
  | "sum" => some .sum
  | "avg" => some .avg
  | "min" => some .min
  | "max" => some .max
  | _ => none

def name : AggregateFunc → String
  | .count => "count"
  | .sum => "sum"
  | .avg => "avg"
  | .min => "min"
  | .max => "max"

end AggregateFunc

/-- A scalar expression. A `slot` is a column already resolved to a position. -/
inductive Expr (S : Type) where
  | column (reference : ColumnRef)
  | slot (position : Nat)
  | literal (value : Value)
  | binary (left : Expr S) (op : BinaryOp) (right : Expr S)
  | not (inner : Expr S)
  | isNull (inner : Expr S)
  | like (expr pattern : Expr S) (negated caseInsensitive : Bool)
  | caseWhen (operand : Option (Expr S)) (branches : List (Expr S × Expr S)) (elseResult : Option (Expr S))
  | cast (expr : Expr S) (dataType : DataType)
  | function (func : ScalarFunc) (args : List (Expr S))
  | inSubquery (expr : Expr S) (subquery : S) (negated : Bool)

namespace Expr

variable {S : Type}

section

set_option linter.unusedSectionVars false

variable {motive : Expr S → Prop}
  (column : ∀ reference, motive (.column reference))
  (slot : ∀ position, motive (.slot position))
  (literal : ∀ value, motive (.literal value))
  (binary : ∀ left op right, motive left → motive right → motive (.binary left op right))
  (not : ∀ inner, motive inner → motive (.not inner))
  (isNull : ∀ inner, motive inner → motive (.isNull inner))
  (like : ∀ expr pattern negated caseInsensitive, motive expr → motive pattern →
    motive (.like expr pattern negated caseInsensitive))
  (caseWhen : ∀ operand branches elseResult, (∀ expr, operand = some expr → motive expr) →
    (∀ branch ∈ branches, motive branch.1 ∧ motive branch.2) →
    (∀ expr, elseResult = some expr → motive expr) → motive (.caseWhen operand branches elseResult))
  (cast : ∀ expr dataType, motive expr → motive (.cast expr dataType))
  (function : ∀ func args, (∀ arg ∈ args, motive arg) → motive (.function func args))
  (inSubquery : ∀ expr subquery negated, motive expr → motive (.inSubquery expr subquery negated))

include column slot literal binary not isNull like caseWhen cast function inSubquery

end

/-- `a = b`. -/
def eq (left right : Expr S) : Expr S := .binary left .eq right

/-- `a AND b`. -/
def and (left right : Expr S) : Expr S := .binary left .and right

/-! ## Referenced columns -/

mutual

/-- Every column reference of an expression. A subquery's own references belong to
its own scope. -/
def referencedColumns : Expr S → List ColumnRef
  | .column reference => [reference]
  | .slot _ | .literal _ => []
  | .binary left _ right => left.referencedColumns ++ right.referencedColumns
  | .not inner | .isNull inner | .cast inner _ => inner.referencedColumns
  | .like expr pattern _ _ => expr.referencedColumns ++ pattern.referencedColumns
  | .caseWhen operand branches elseResult =>
    optionReferences operand ++ optionReferences elseResult ++ branchReferences branches
  | .function _ args => argReferences args
  | .inSubquery expr _ _ => expr.referencedColumns

def optionReferences : Option (Expr S) → List ColumnRef
  | none => []
  | some expr => expr.referencedColumns

def branchReferences : List (Expr S × Expr S) → List ColumnRef
  | [] => []
  | (when, result) :: rest => when.referencedColumns ++ result.referencedColumns ++ branchReferences rest

def argReferences : List (Expr S) → List ColumnRef
  | [] => []
  | arg :: rest => arg.referencedColumns ++ argReferences rest

end

/-! ## Derived equality -/

section

variable [BEq S]

mutual

/-- The derived `PartialEq`: literals are compared as values, so a NaN differs from
itself. -/
def same : Expr S → Expr S → Bool
  | .column left, .column right => left == right
  | .slot left, .slot right => left == right
  | .literal left, .literal right => left.eq right
  | .binary left op right, .binary left' op' right' => left.same left' && op == op' && right.same right'
  | .not inner, .not inner' => inner.same inner'
  | .isNull inner, .isNull inner' => inner.same inner'
  | .like expr pattern negated caseInsensitive, .like expr' pattern' negated' caseInsensitive' =>
    expr.same expr' && pattern.same pattern' && negated == negated' && caseInsensitive == caseInsensitive'
  | .caseWhen operand branches elseResult, .caseWhen operand' branches' elseResult' =>
    sameOption operand operand' && sameBranches branches branches' && sameOption elseResult elseResult'
  | .cast expr dataType, .cast expr' dataType' => expr.same expr' && dataType == dataType'
  | .function func args, .function func' args' => func == func' && sameArgs args args'
  | .inSubquery expr subquery negated, .inSubquery expr' subquery' negated' =>
    expr.same expr' && subquery == subquery' && negated == negated'
  | _, _ => false
termination_by structural expr => expr

def sameOption : Option (Expr S) → Option (Expr S) → Bool
  | none, none => true
  | some left, some right => left.same right
  | _, _ => false
termination_by structural option => option

def sameBranches : List (Expr S × Expr S) → List (Expr S × Expr S) → Bool
  | [], [] => true
  | (when, result) :: rest, (when', result') :: rest' =>
    when.same when' && result.same result' && sameBranches rest rest'
  | _, _ => false
termination_by structural branches => branches

def sameArgs : List (Expr S) → List (Expr S) → Bool
  | [], [] => true
  | left :: rest, right :: rest' => left.same right && sameArgs rest rest'
  | _, _ => false
termination_by structural args => args

end

end

end Expr

/-- One aggregate of a grouping; `count(*)` has no argument. -/
structure AggregateCall (S : Type) where
  func : AggregateFunc
  arg : Option (Expr S)
  distinct : Bool

end Ferrite.Plan
