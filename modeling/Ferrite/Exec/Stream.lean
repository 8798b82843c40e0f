import Ferrite.Exec.Eval
import Ferrite.Exec.Executor
import Ferrite.Plan.Lowering

/-!
# Query nodes

Filters and joins of `ferrite-exec/src/executor.rs`. Every node materializes its rows
and may hold at most `maxRows` of them. The clock is left out, a statement that runs out
of time only fails.
-/

namespace Ferrite.Stream

open Plan Eval
open Exec (fillAddedColumns)

variable {P : Type}

/-- A row with its identity in storage, as long as it has one. -/
structure Tuple where
  rid : Option RowId
  row : Row
deriving DecidableEq

/-- What a statement runs against. `maxRows = 0` means no limit. -/
structure Session where
  runtime : Runtime
  maxRows : Nat
  scan : TableId → List (RowId × Row)
  lookup : Option (TableId → String → Value → List RowId)

namespace Session

variable (session : Session)

/-- Whether a node may hold that many rows. -/
def admitRows (rows : Nat) : Except FerriteError Unit :=
  if session.maxRows = 0 ∨ rows ≤ session.maxRows then .ok ()
  else
    .error (.resourceLimit
      s!"a query materialized more than {session.maxRows} rows; narrow it with a WHERE clause, or raise              the executor row budget")

/-- A row passes when there is no predicate or the predicate is true. -/
def keeps (predicate : Option (PhysExpr P)) (row : Row) : Except FerriteError Bool :=
  match predicate with
  | none => .ok true
  | some predicate => evalPredicate session.runtime row predicate

/-! ## Scans -/

/-- The tuples a predicate keeps. -/
def select (predicate : PhysExpr P) : List Tuple → Except FerriteError (List Tuple)
  | [] => .ok []
  | tuple :: rest => do
    let keep ← evalPredicate session.runtime tuple.row predicate
    let others ← select predicate rest
    pure (if keep then tuple :: others else others)

/-! ## Joins -/

/-- Two rows side by side. -/
def concat (left right : Row) : Row := ⟨left.values ++ right.values⟩

def nulls (width : Nat) : Row := ⟨List.replicate width .null⟩

/-- The width of the first tuple, zero without one. -/
def firstWidth (tuples : List Tuple) : Nat :=
  match tuples with
  | [] => 0
  | tuple :: _ => tuple.row.values.length

/-- What the join has found so far: which inner rows were matched, and the output. -/
structure JoinState where
  matched : List Bool
  out : List Tuple

/-- Add one row to the output. -/
def emit (state : JoinState) (row : Row) : Except FerriteError JoinState := do
  let out := state.out ++ [⟨none, row⟩]
  session.admitRows out.length
  pure { state with out := out }

/-- One outer row against the inner rows from a position on. The flag says whether
there was a match. -/
def joinInner (predicate : Option (PhysExpr P)) (left : Tuple) :
    Nat → Bool → JoinState → List Tuple → Except FerriteError (Bool × JoinState)
  | _, any, state, [] => .ok (any, state)
  | position, any, state, right :: rest => do
    let joined := concat left.row right.row
    let keep ← session.keeps predicate joined
    if keep then do
      let state ← session.emit { state with matched := state.matched.set position true } joined
      joinInner predicate left (position + 1) true state rest
    else joinInner predicate left (position + 1) any state rest

def joinOuter (joinType : JoinType) (predicate : Option (PhysExpr P)) (inner : List Tuple) (innerWidth : Nat) :
    JoinState → List Tuple → Except FerriteError JoinState
  | state, [] => .ok state
  | state, left :: rest => do
    let found ← session.joinInner predicate left 0 false state inner
    if !found.1 && joinType.preservesLeft then do
      let state ← session.emit found.2 (concat left.row (nulls innerWidth))
      joinOuter joinType predicate inner innerWidth state rest
    else joinOuter joinType predicate inner innerWidth found.2 rest

/-- The inner rows that were never matched. -/
def joinUnmatched (outerWidth : Nat) : Nat → JoinState → List Tuple → Except FerriteError JoinState
  | _, state, [] => .ok state
  | position, state, right :: rest =>
    if state.matched.getD position false then joinUnmatched outerWidth (position + 1) state rest
    else do
      let state ← session.emit state (concat (nulls outerWidth) right.row)
      joinUnmatched outerWidth (position + 1) state rest

/-- Every join type in one loop. -/
def nestedLoopJoin (outer inner : List Tuple) (joinType : JoinType) (predicate : Option (PhysExpr P)) :
    Except FerriteError (List Tuple) := do
  let start : JoinState := ⟨List.replicate inner.length false, []⟩
  let joined ← session.joinOuter joinType predicate inner (firstWidth inner) start outer
  if joinType.preservesRight then do
    let all ← session.joinUnmatched (firstWidth outer) 0 joined inner
    pure all.out
  else pure joined.out

end Session

end Ferrite.Stream
