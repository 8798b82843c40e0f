import Ferrite.Common.Datetime
import Ferrite.Plan.Physical
import Ferrite.Sql.Ast

/-!
# Lowering parsed expressions

`ferrite-planner/src/lower.rs`: the parsed tree projected onto the planner's
expressions. What the executor cannot run is refused here, `BETWEEN` and `IN` lists
are expanded, parameters become literals, and an aggregate call above the grouping
becomes the position of its result.
-/

namespace Ferrite.Plan

open Sql

variable {Q S : Type}

def unsupported (what : String) : FerriteError := .plan s!"{what} is not supported by the v1 planner"

/-! ## Collations -/

inductive Collation where
  | binary
  | nocase
deriving DecidableEq

def collationKind (name : String) : Except FerriteError Collation :=
  if eqIgnoreAsciiCase name "nocase" then .ok .nocase
  else if eqIgnoreAsciiCase name "binary" then .ok .binary
  else .error (unsupported s!"the collation {name}")

/-- Whether an operand carries an explicit `COLLATE NOCASE`. -/
def foldsCase : Ast.Expr Q → Except FerriteError Bool
  | .collate _ collation => do
    let kind ← collationKind collation
    pure (kind == .nocase)
  | _ => .ok false

/-- The second operand is looked at only when the first does not fold. -/
def eitherFoldsCase (left right : Ast.Expr Q) : Except FerriteError Bool := do
  let folds ← foldsCase left
  if folds then pure true else foldsCase right

/-- Wrap an operand in the case fold, unless it is one already. -/
def foldCase : Expr S → Expr S
  | .function .nocase args => .function .nocase args
  | other => .function .nocase [other]

/-! ## Pieces -/

/-- Where an aggregate call lands in the row above the grouping. -/
structure AggregateSlots (Q : Type) where
  calls : List (Ast.FunctionCall (Ast.Expr Q))
  offset : Nat

/-- What an expression is lowered with: the bound parameters, the relations in scope,
the aggregates already computed, and how a subquery is planned where one is legal. -/
structure Lowerer (Q S : Type) where
  calendar : Calendar
  params : List Value
  qualifiers : List String
  aggregates : Option (AggregateSlots Q)
  subqueries : Option (Q → Except FerriteError S)

def negate (formats : TextFormats) : Value → Except FerriteError Value
  | .int4 value => .ok (.int4 (-value))
  | .int8 value => .ok (.int8 (-value))
  | .float8 bits => .ok (.float8 (negateFloat bits))
  | other => .error (.plan s!"cannot negate {debugValue formats other}")

/-- `a OR b`. -/
def Expr.or (left right : Expr S) : Expr S := .binary left .or right

/-- One halving of a list of tests. -/
def pairTests : List (Expr S) → List (Expr S)
  | first :: second :: rest => Expr.or first second :: pairTests rest
  | tests => tests

/-- Fold tests into one `OR` by halving; every round leaves at most half of them. -/
def balancedOr : Nat → List (Expr S) → Expr S
  | _, [] => .literal (.boolean false)
  | _, [test] => test
  | 0, test :: _ => test
  | rounds + 1, tests => balancedOr rounds (pairTests tests)

/-- The literals among arguments, when all of them are. -/
def literalArgs : List (Expr S) → Option (List Value)
  | [] => some []
  | .literal value :: rest => (literalArgs rest).map (value :: ·)
  | _ :: _ => none

/-- `datetime` and `date` over literals are evaluated once, here. -/
def foldTemporal (calendar : Calendar) (func : ScalarFunc) (args : List (Expr S)) : Except FerriteError (Expr S) :=
  match func, literalArgs args with
  | .datetime, some values => Expr.literal <$> calendar.evalDatetime values true
  | .date, some values => Expr.literal <$> calendar.evalDatetime values false
  | func, _ => .ok (.function func args)

def callPosition [BEq Q] (calls : List (Ast.FunctionCall (Ast.Expr Q))) (call : Ast.FunctionCall (Ast.Expr Q)) :
    Option Nat :=
  calls.findIdx? fun other => Ast.Expr.sameCall other call

namespace Lowerer

variable (formats : TextFormats) (lowerer : Lowerer Q S)

/-- A qualifier has to name a relation in scope. -/
def column (name : ObjectName) : Except FerriteError (Expr S) :=
  match name.qualifier with
  | none => .ok (.column ⟨none, name.base⟩)
  | some qualifier =>
    if lowerer.qualifiers.isEmpty then
      .error (.plan s!"column reference {qualifier}.{name.base} has no relation in scope")
    else if lowerer.qualifiers.contains qualifier then .ok (.column ⟨some qualifier, name.base⟩)
    else .error (.plan s!"no relation named {qualifier} in this statement")

/-- Parameters are numbered from one. -/
def parameter (number : UInt32) : Except FerriteError Value :=
  if number = 0 then .error (.plan s!"invalid parameter ${number}")
  else
    match lowerer.params[number.toNat - 1]? with
    | some value => .ok value
    | none => .error (.plan s!"${number} has no bound value")

/-- An aggregate call is a column of the grouping below. The source expects to find
it there. -/
def aggregateSlot [BEq Q] (call : Ast.FunctionCall (Ast.Expr Q)) : Except FerriteError (Expr S) :=
  match lowerer.aggregates with
  | none => .error (.plan s!"{call.name}() is only allowed in a select list, HAVING or ORDER BY")
  | some slots =>
    match callPosition slots.calls call with
    | some position => .ok (.slot (slots.offset + position))
    | none => .error (.plan "every aggregate in the statement was collected first")

/-- What has to hold of a scalar call before its arguments are lowered. -/
def scalarFunc (name : String) (distinct : Bool) (given : Nat) : Except FerriteError ScalarFunc :=
  match ScalarFunc.parse name with
  | none => .error (unsupported s!"the function {name}")
  | some func =>
    if distinct then
      .error (.plan s!"DISTINCT is only meaningful inside an aggregate, not in {name}()")
    else do
      func.checkArity given
      pure func

def negatedIf (negated : Bool) (expr : Expr S) : Expr S := if negated then .not expr else expr

def unary (op : Ast.UnaryOp) (lowered : Expr S) : Except FerriteError (Expr S) :=
  match op, lowered with
  | .not, inner => .ok (.not inner)
  | .plus, inner => .ok inner
  | .minus, .literal value => Expr.literal <$> negate formats value
  | .minus, other => .ok (.binary (.literal (.int4 0)) .minus other)

/-- A comparison folds both operands when either carries the collation. -/
def comparison (left : Ast.Expr Q) (op : BinaryOp) (right : Ast.Expr Q) (loweredLeft loweredRight : Expr S) :
    Except FerriteError (Expr S) :=
  if op.isComparison then do
    let folds ← eitherFoldsCase left right
    if folds then pure (.binary (foldCase loweredLeft) op (foldCase loweredRight))
    else pure (.binary loweredLeft op loweredRight)
  else .ok (.binary loweredLeft op loweredRight)

def range (negated : Bool) (subject low high : Expr S) : Expr S :=
  negatedIf negated (Expr.and (.binary subject .gtEq low) (.binary subject .ltEq high))

def membership (negated : Bool) (subject : Expr S) (items : List (Expr S)) : Expr S :=
  negatedIf negated (balancedOr items.length (items.map (Expr.eq subject)))

def collated (collation : String) (inner : Expr S) : Except FerriteError (Expr S) := do
  let kind ← collationKind collation
  pure (match kind with
    | .binary => inner
    | .nocase => .function .nocase [inner])

variable [BEq Q]

mutual

def expr : Ast.Expr Q → Except FerriteError (Expr S)
  | .literal literal => .ok (.literal (literalValue literal))
  | .column name => lowerer.column name
  | .parameter number => Expr.literal <$> lowerer.parameter number
  | .unaryOp op inner => do
    let lowered ← expr inner
    unary formats op lowered
  | .binaryOp left op right => do
    let loweredLeft ← expr left
    let loweredRight ← expr right
    comparison left op right loweredLeft loweredRight
  | .isNull inner negated => do
    let lowered ← expr inner
    pure (negatedIf negated (.isNull lowered))
  | .between inner negated low high => do
    let subject ← expr inner
    let loweredLow ← expr low
    let loweredHigh ← expr high
    pure (range negated subject loweredLow loweredHigh)
  | .inList inner list negated =>
    if list.isEmpty then .error (unsupported "an empty IN list")
    else do
      let subject ← expr inner
      let items ← exprs list
      pure (membership negated subject items)
  | .like inner pattern negated caseInsensitive => do
    let nocase ← eitherFoldsCase inner pattern
    let subject ← expr inner
    let loweredPattern ← expr pattern
    pure (.like subject loweredPattern negated (caseInsensitive || nocase))
  | .collate inner collation => do
    let lowered ← expr inner
    collated collation lowered
  | .cast inner dataType => do
    let lowered ← expr inner
    pure (.cast lowered dataType)
  | .caseWhen operand branches elseResult => do
    let loweredOperand ← option operand
    let loweredBranches ← exprBranches branches
    let loweredElse ← option elseResult
    pure (.caseWhen loweredOperand loweredBranches loweredElse)
  | .function call => function call
  | .inSubquery inner query negated =>
    match lowerer.subqueries with
    | none => .error (unsupported "a subquery here")
    | some build => do
      let lowered ← expr inner
      let plan ← build query
      pure (.inSubquery lowered plan negated)
  | .subquery _ => .error (unsupported "a scalar subquery")
  | .exists _ _ => .error (unsupported "EXISTS")

/-- A scalar call lowers to itself, an aggregate to the column it was computed into. -/
def function : Ast.FunctionCall (Ast.Expr Q) → Except FerriteError (Expr S)
  | ⟨name, args, distinct⟩ =>
    if Ast.isAggregate name then lowerer.aggregateSlot ⟨name, args, distinct⟩
    else scalarCall name distinct args

def scalarCall (name : String) (distinct : Bool) : Ast.FunctionArgs (Ast.Expr Q) → Except FerriteError (Expr S)
  | .wildcard =>
    if (ScalarFunc.parse name).isSome then
      .error (.plan s!"{name}(*) is not a valid call; \x60*\x60 is only an argument to count()")
    else .error (unsupported s!"the function {name}")
  | .list args => do
    let func ← scalarFunc name distinct args.length
    let lowered ← exprs args
    foldTemporal lowerer.calendar func lowered

def option : Option (Ast.Expr Q) → Except FerriteError (Option (Expr S))
  | none => .ok none
  | some inner => do
    let lowered ← expr inner
    pure (some lowered)

def exprBranches : List (Ast.Expr Q × Ast.Expr Q) → Except FerriteError (List (Expr S × Expr S))
  | [] => .ok []
  | (when, result) :: rest => do
    let loweredWhen ← expr when
    let loweredResult ← expr result
    let others ← exprBranches rest
    pure ((loweredWhen, loweredResult) :: others)

def exprs : List (Ast.Expr Q) → Except FerriteError (List (Expr S))
  | [] => .ok []
  | inner :: rest => do
    let lowered ← expr inner
    let others ← exprs rest
    pure (lowered :: others)

end

end Lowerer

/-! ## Aggregates -/

section

variable [BEq Q]

def argsContainAggregate : Ast.FunctionArgs (Ast.Expr Q) → Bool
  | .wildcard => false
  | .list args => args.any Ast.Expr.containsAggregate

/-- Record an aggregate call that has not been seen; one inside another is refused. -/
def collectAggregate (out : List (Ast.FunctionCall (Ast.Expr Q))) (part : Ast.Expr Q) :
    Except FerriteError (List (Ast.FunctionCall (Ast.Expr Q))) :=
  match part.aggregateCall with
  | none => .ok out
  | some call =>
    if argsContainAggregate call.args then .error (unsupported "an aggregate inside another aggregate")
    else if (callPosition out call).isSome then .ok out
    else .ok (out ++ [call])

/-- The aggregate calls of an expression, appended without duplicates. -/
def collectAggregates (out : List (Ast.FunctionCall (Ast.Expr Q))) (expr : Ast.Expr Q) :
    Except FerriteError (List (Ast.FunctionCall (Ast.Expr Q))) :=
  expr.walk.foldlM collectAggregate out

end

/-! ## Group keys -/

section

variable [BEq S] (keys : List (Expr S))

/-- A subtree equal to a key is the slot it occupies above the grouping. -/
def keySlotOr (original rebuilt : Expr S) : Expr S :=
  match keys.findIdx? fun key => key.same original with
  | some position => .slot position
  | none => rebuilt

mutual

def substituteGroupKeys : Expr S → Expr S
  | .binary left op right =>
    keySlotOr keys (.binary left op right) (.binary (substituteGroupKeys left) op (substituteGroupKeys right))
  | .not inner => keySlotOr keys (.not inner) (.not (substituteGroupKeys inner))
  | .isNull inner => keySlotOr keys (.isNull inner) (.isNull (substituteGroupKeys inner))
  | .like expr pattern negated caseInsensitive =>
    keySlotOr keys (.like expr pattern negated caseInsensitive)
      (.like (substituteGroupKeys expr) (substituteGroupKeys pattern) negated caseInsensitive)
  | .cast expr dataType => keySlotOr keys (.cast expr dataType) (.cast (substituteGroupKeys expr) dataType)
  | .function func args => keySlotOr keys (.function func args) (.function func (substituteArgs args))
  | .caseWhen operand branches elseResult =>
    keySlotOr keys (.caseWhen operand branches elseResult)
      (.caseWhen (substituteOption operand) (substituteBranches branches) (substituteOption elseResult))
  | .column reference => keySlotOr keys (.column reference) (.column reference)
  | .slot position => keySlotOr keys (.slot position) (.slot position)
  | .literal value => keySlotOr keys (.literal value) (.literal value)
  | .inSubquery expr subquery negated =>
    keySlotOr keys (.inSubquery expr subquery negated) (.inSubquery expr subquery negated)

def substituteOption : Option (Expr S) → Option (Expr S)
  | none => none
  | some expr => some (substituteGroupKeys expr)

def substituteBranches : List (Expr S × Expr S) → List (Expr S × Expr S)
  | [] => []
  | (when, result) :: rest =>
    (substituteGroupKeys when, substituteGroupKeys result) :: substituteBranches rest

def substituteArgs : List (Expr S) → List (Expr S)
  | [] => []
  | arg :: rest => substituteGroupKeys arg :: substituteArgs rest

end

end

/-- A column that survived the substitution is read outside the grouping. -/
def rejectUngrouped (expr : Expr S) : Except FerriteError Unit :=
  match expr.referencedColumns with
  | [] => .ok ()
  | reference :: _ =>
    .error (.plan
      s!"{reference.display} must appear in the GROUP BY clause or be used in an aggregate function")

/-! ## The one `SELECT` of a query -/

/-- A query down to its `SELECT`, with the clauses that apply to it. -/
structure QueryTail (Q : Type) where
  select : Ast.Select Q
  orderBy : List (Ast.OrderByItem Q)
  limit : Option (Ast.Expr Q)
  offset : Option (Ast.Expr Q)

mutual

/-- The outer clauses apply; a parenthesised query keeps only its `SELECT`. -/
def singleSelect : Ast.Query Q → Except FerriteError (QueryTail Q)
  | .mk ctes body orderBy limit offset =>
    if ctes.isEmpty then do
      let select ← selectOf body
      pure ⟨select, orderBy, limit, offset⟩
    else .error (unsupported "WITH (common table expressions)")

def selectOf : Ast.SetExpr Q → Except FerriteError (Ast.Select Q)
  | .select select => .ok select
  | .query inner => do
    let tail ← singleSelect inner
    pure tail.select
  | .setOp _ _ _ _ => .error (unsupported "UNION/INTERSECT/EXCEPT")

end

/-- What a `LIMIT` or `OFFSET` literal counts; `NULL` means no limit. -/
def literalCount (clause : String) : Value → Except FerriteError (Option Nat)
  | .int4 value => nonNegative value.toInt
  | .int8 value => nonNegative value.toInt
  | .null => .ok none
  | _ => refused
where
  refused : Except FerriteError (Option Nat) :=
    .error (.plan s!"{clause} must be a non-negative integer constant")
  nonNegative (value : Int) : Except FerriteError (Option Nat) :=
    if 0 ≤ value then .ok (some value.toNat) else refused

/-- The constant of a `LIMIT` or `OFFSET` clause. -/
def rowCount [BEq Q] (formats : TextFormats) (lowerer : Lowerer Q S) (clause : String) :
    Option (Ast.Expr Q) → Except FerriteError (Option Nat)
  | none => .ok none
  | some expr => do
    match ← lowerer.expr formats expr with
    | .literal value => literalCount clause value
    | _ => .error (.plan s!"{clause} must be a non-negative integer constant")

end Ferrite.Plan
