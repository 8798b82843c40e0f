import Ferrite.Exec.Truth
import Ferrite.Sql.Grammar
import Ferrite.Logical.Balance

/-!
# Runs of `AND` and `OR`

The parser folds the operands of a run by halves (`parse_boolean_run`), so does the planner
with the tests of an `IN` list (`balanced_or`) and the executor with those of a subquery
(`value_test`). Evaluated, all of them are the chain from left to right: the truth values of
the operands are combined in their order, and once one settles the run or raises, the
operands after it are not evaluated.
-/

namespace Ferrite.Eval

open Sql Plan Logical Logical.Balance Grouping

/-- `AND` or `OR`. -/
inductive Connective where
  | and
  | or
deriving DecidableEq, Repr

namespace Connective

def op : Connective → BinaryOp
  | .and => .and
  | .or => .or

/-- The truth value that settles a run. -/
def settles : Connective → Bool
  | .and => false
  | .or => true

def merge : Connective → Option Bool → Option Bool → Option Bool
  | .and => both
  | .or => either

variable (connective : Connective)

/-- Whether a run goes on after operands of this truth. -/
def goesOn : Except FerriteError (Option Bool) → Bool
  | .ok truth => truth != some connective.settles
  | .error _ => false

/-- The truth of a run of two. -/
def short (left right : Except FerriteError (Option Bool)) : Except FerriteError (Option Bool) := do
  let leftTruth ← left
  if leftTruth = some connective.settles then .ok (some connective.settles)
  else do
    let rightTruth ← right
    pure (connective.merge leftTruth rightTruth)

variable {connective}

variable {left : Option Bool} {first second : Except FerriteError (Option Bool)}

private theorem merge_eq_settles {right : Option Bool} (open_ : left ≠ some connective.settles) :
    connective.merge left right = some connective.settles ↔ right = some connective.settles := by
  cases connective <;> rcases left with _ | _ | _ <;> rcases right with _ | _ | _ <;>
    simp_all [merge, settles, both, either]

private theorem merge_assoc (first second third : Option Bool) : connective.merge
    (connective.merge first second) third =
      connective.merge first (connective.merge second third) := by
  cases connective <;> rcases first with _ | _ | _ <;> rcases second with _ | _ | _ <;>
    rcases third with _ | _ | _ <;> rfl

private theorem merge_settles (left : Option Bool) :
    connective.merge left (some connective.settles) = some connective.settles := by
  cases connective <;> rcases left with _ | _ | _ <;> rfl

private theorem short_settled (right : Except FerriteError (Option Bool)) :
    connective.short (.ok (some connective.settles)) right = .ok (some connective.settles) := if_pos rfl

private theorem short_open (open_ : left ≠ some connective.settles) (right : Except FerriteError (Option Bool)) :
    connective.short (.ok left) right = connective.merge left <$> right := by
  rw [short, ok_bind, if_neg open_]
  cases right <;> rfl

private theorem short_assoc (first second third : Except FerriteError (Option Bool)) :
    connective.short (connective.short first second) third =
      connective.short first (connective.short second third) := by
  cases first with
  | error e => rfl
  | ok first =>
    by_cases settled : first = some connective.settles
    · rw [settled, short_settled, short_settled, short_settled]
    · rw [short_open settled, short_open settled]
      cases second with
      | error e => rfl
      | ok second =>
        change connective.short (.ok (connective.merge first second)) third = _
        by_cases settledNext : second = some connective.settles
        · rw [settledNext, merge_settles, short_settled]
          exact congrArg Except.ok (merge_settles first).symm
        · have still : connective.merge first second ≠ some connective.settles :=
            fun same => settledNext ((merge_eq_settles settled).mp same)
          rw [short_open settledNext, short_open still]
          cases third with
          | error e => rfl
          | ok third => exact congrArg Except.ok (merge_assoc first second third)

private theorem goesOn_short (open_ : connective.goesOn first = true) :
    connective.goesOn (connective.short first second) = connective.goesOn second := by
  cases first with
  | error e => cases open_
  | ok first =>
    have settled : first ≠ some connective.settles := by simpa [goesOn] using open_
    rw [short_open settled]
    cases second with
    | error e => rfl
    | ok second =>
      have same : connective.merge first second = some connective.settles ↔ second = some connective.settles :=
        merge_eq_settles settled
      change (connective.merge first second != some connective.settles) = (second != some connective.settles)
      rw [Bool.eq_iff_iff]
      simp [same]

private theorem goesOn_short_of_settled (settled : connective.goesOn first = false) :
    connective.goesOn (connective.short first second) = false := by
  cases first with
  | error e => rfl
  | ok first =>
    have settled : first = some connective.settles := by simpa [goesOn] using settled
    rw [settled, short_settled]
    simp [goesOn]

end Connective

/-! ## Evaluating a tree -/

section

variable {P : Type} (connective : Connective) (runtime : Runtime) (row : Row)

/-- What evaluating an expression comes to, and the operands it evaluated. -/
abbrev Visit (P : Type) := Except FerriteError Value × List (PhysExpr P)

/-- The left operand, and the right one unless the left settles the run or raises. -/
def Connective.connect (left right : Visit P) : Visit P :=
  (ofTruth <$> connective.short (left.1 >>= asBool) (right.1 >>= asBool),
    left.2 ++ if connective.goesOn (left.1 >>= asBool) then right.2 else [])

/-- The expression of a tree of operands. -/
abbrev Connective.join (left right : PhysExpr P) : PhysExpr P := .binary left connective.op right

/-- Evaluate a tree of operands. -/
def visit (tree : Grouping (PhysExpr P)) : Visit P :=
  (tree.map fun operand => (eval runtime row operand, [operand])).fold connective.connect

/-- Operands up to the first that settles the run or raises. -/
def upToDeciding : List (PhysExpr P) → List (PhysExpr P)
  | [] => []
  | operand :: rest =>
    operand :: if connective.goesOn (eval runtime row operand >>= asBool) then upToDeciding rest else []

variable {connective runtime row}

private theorem asBool_ofTruth_map (truth : Except FerriteError (Option Bool)) :
    (ofTruth <$> truth) >>= asBool = truth := by
  cases truth with
  | error e => rfl
  | ok truth => exact asBool_ofTruth truth

private theorem connect_assoc (first second third : Visit P) : connective.connect
    (connective.connect first second) third =
      connective.connect first (connective.connect second third) := by
  simp only [Connective.connect, asBool_ofTruth_map, Connective.short_assoc]
  congr 1
  cases going : connective.goesOn (first.1 >>= asBool) with
  | false => simp [Connective.goesOn_short_of_settled going]
  | true => simp [Connective.goesOn_short going]

private theorem binary_eq_short (value : Value) (right : Except FerriteError Value) :
    binary runtime connective.op value right =
      ofTruth <$> connective.short (asBool value) (right >>= asBool) := by
  have shortened : ∀ left, connective.short (.ok left) (right >>= asBool) =
      if left = some connective.settles then .ok (some connective.settles)
      else connective.merge left <$> (right >>= asBool) := by
    intro left
    rw [Connective.short, ok_bind]
    cases right >>= asBool <;> rfl
  cases truth : asBool value with
  | error e => cases connective <;> simp only [binary, Connective.op, truth] <;> rfl
  | ok left =>
    rw [shortened]
    cases connective with
    | and =>
      simp only [Connective.op, binary, truth, ok_bind]
      cases right with
      | error e => rcases left with _ | _ | _ <;> rfl
      | ok value =>
        rw [ok_bind, conjunction_eq, ok_bind]
        cases asBool value <;> rcases left with _ | _ | _ <;> rfl
    | or =>
      simp only [Connective.op, binary, truth, ok_bind]
      cases right with
      | error e => rcases left with _ | _ | _ <;> rfl
      | ok value =>
        rw [ok_bind]
        cases rightTruth : asBool value with
        | error e => rcases left with _ | _ | _ <;> simp only [disjunction, ok_bind, rightTruth] <;> rfl
        | ok right =>
          rcases left with _ | _ | _ <;> rcases right with _ | _ | _ <;>
            simp only [disjunction, ok_bind, rightTruth] <;> rfl

/-- `AND` and `OR` evaluate by the truth values of their operands. -/
theorem eval_join (left right : PhysExpr P) : eval runtime row (connective.join left right) =
      ofTruth <$> connective.short (eval runtime row left >>= asBool) (eval runtime row right >>= asBool) := by
  rw [Connective.join, eval]
  cases eval runtime row left with
  | error e => rfl
  | ok value => exact binary_eq_short value _

private theorem visit_value (tree : Grouping (PhysExpr P)) :
    (visit connective runtime row tree).1 = eval runtime row (tree.fold connective.join) := by
  induction tree with
  | leaf operand => rfl
  | node left right left_ih right_ih =>
    rw [fold, eval_join, ← left_ih, ← right_ih]
    rfl

/-- Operands after others that came to some visit. -/
theorem visited_foldl (before : Visit P) (operands : List (PhysExpr P)) :
    ((operands.map fun operand => (eval runtime row operand, [operand])).foldl connective.connect before).2 =
      before.2 ++ if connective.goesOn (before.1 >>= asBool) then upToDeciding connective runtime row operands
        else [] := by
  induction operands generalizing before with
  | nil => simp [upToDeciding]
  | cons operand rest ih =>
    rw [List.map_cons, List.foldl_cons, ih]
    simp only [Connective.connect, asBool_ofTruth_map]
    cases going : connective.goesOn (before.1 >>= asBool) with
    | false => simp [Connective.goesOn_short_of_settled going]
    | true => simp [Connective.goesOn_short going, upToDeciding]

/-- A tree is evaluated as its operands are from left to right. -/
theorem visit_eq {tree : Grouping (PhysExpr P)} {first : PhysExpr P} {rest : List (PhysExpr P)}
    (leaves : tree.leaves = first :: rest) : visit connective runtime row tree =
      (eval runtime row (rest.foldl connective.join first), upToDeciding connective runtime row (first :: rest)) := by
  have read : ∀ other : Grouping (PhysExpr P), other.leaves = first :: rest → visit connective runtime row other =
      (rest.map fun operand => (eval runtime row operand, [operand])).foldl connective.connect
        (eval runtime row first, [first]) := by
    intro other same
    refine fold_eq_foldl connect_assoc _ ?_
    rw [leaves_map, same]
    rfl
  refine Prod.ext ?_ ?_
  · rw [read tree leaves, ← read (.chain first rest) (leaves_chain first rest), visit_value,
      fold_chain]
  · rw [read tree leaves, visited_foldl]
    rfl

/-- Trees over the same operands evaluate alike. -/
theorem eval_of_leaves_eq {one other : Grouping (PhysExpr P)} (same : one.leaves = other.leaves) :
    eval runtime row (one.fold connective.join) = eval runtime row (other.fold connective.join) := by
  obtain ⟨first, rest, leaves⟩ := List.exists_cons_of_ne_nil one.leaves_ne_nil
  rw [← visit_value, ← visit_value, visit_eq leaves, visit_eq (same ▸ leaves)]

variable (connective runtime row)

/-- An expression over operands that is low, and evaluates them from left to right up to the
one that decides. -/
def RunsOver (operands : List (PhysExpr P)) (expr : PhysExpr P) : Prop :=
  ∃ tree : Grouping (PhysExpr P), expr = tree.fold connective.join ∧ tree.leaves = operands ∧
    tree.height ≤ Nat.clog 2 operands.length ∧
    visit connective runtime row tree = (eval runtime row expr, upToDeciding connective runtime row operands)

/-- The expression is built if its operands are; otherwise it fails as the first of them. -/
def BuiltOver : Except FerriteError (List (PhysExpr P)) → Except FerriteError (PhysExpr P) → Prop
  | .ok operands, .ok expr => RunsOver connective runtime row operands expr
  | .error e, .error e' => e = e'
  | _, _ => False

variable {connective runtime row}

private theorem runsOver_of_tree {tree : Grouping (PhysExpr P)} (low : tree.height ≤ Nat.clog 2 tree.leaves.length) :
    RunsOver connective runtime row tree.leaves (tree.fold connective.join) := by
  refine ⟨tree, rfl, rfl, low, Prod.ext (visit_value tree) ?_⟩
  obtain ⟨first, rest, leaves⟩ := List.exists_cons_of_ne_nil tree.leaves_ne_nil
  rw [visit_eq leaves, leaves]

end

/-! ## Through the planner -/

section

variable {Q S P : Type} (connective : Connective) (interpretation : Interpretation S P) (scope : Scope) (row : Row)

/-- `AND` or `OR` in the planner's expressions. -/
abbrev Connective.planned (left right : Expr S) : Expr S := .binary left connective.op right

/-- Bind an expression and replace its subqueries by their answers. -/
def settle (expr : Expr S) : Except FerriteError (PhysExpr P) :=
  resolveExpr interpretation.answers <$> interpretation.bindExpr scope expr

variable {connective interpretation scope row}

private theorem bindExpr_planned (left right : Expr S) : interpretation.bindExpr scope (connective.planned left right) =
      (do
        let boundLeft ← interpretation.bindExpr scope left
        let boundRight ← interpretation.bindExpr scope right
        pure (connective.join boundLeft boundRight)) := by
  cases connective <;> rfl

private theorem settle_planned (left right : Expr S) : settle interpretation scope (connective.planned left right) =
      (do
        let boundLeft ← settle interpretation scope left
        let boundRight ← settle interpretation scope right
        pure (connective.join boundLeft boundRight)) := by
  rw [settle, bindExpr_planned, settle, settle]
  cases interpretation.bindExpr scope left with
  | error e => rfl
  | ok boundLeft => cases interpretation.bindExpr scope right <;> rfl

private theorem value_eq_settle (expr : Expr S) :
    interpretation.value scope row expr = (settle interpretation scope expr).bind (eval interpretation.runtime row) := by
  rw [Interpretation.value, settle]
  cases interpretation.bindExpr scope expr <;> rfl

/-- A tree of the planner's expressions is built from its operands from left to right. -/
theorem builtOver_planned {tree : Grouping (Expr S)} (low : tree.height ≤ Nat.clog 2 tree.leaves.length) :
    BuiltOver connective interpretation.runtime row (tree.leaves.mapM (settle interpretation scope))
      (settle interpretation scope (tree.fold connective.planned)) := by
  rw [fold_traverse settle_planned, ← traverse_leaves]
  cases traversed : tree.traverse (settle interpretation scope) with
  | error e => rfl
  | ok settled =>
    obtain ⟨height, length⟩ := shape_traverse traversed
    refine runsOver_of_tree ?_
    rw [height, length]
    exact low

/-- Trees of the planner's expressions over the same operands have the same value. -/
theorem value_of_leaves_eq {one other : Grouping (Expr S)} (same : one.leaves = other.leaves) :
    interpretation.value scope row (one.fold connective.planned) =
      interpretation.value scope row (other.fold connective.planned) := by
  rw [value_eq_settle, value_eq_settle, fold_traverse settle_planned, fold_traverse settle_planned]
  obtain ⟨e, one, other⟩ | ⟨first, second, one, other, leaves⟩ :=
    traverse_of_leaves_eq (settle interpretation scope) same
  · rw [one, other]
  · rw [one, other]
    exact eval_of_leaves_eq leaves

section

variable [BEq Q] (connective interpretation scope row) (lowerer : Lowerer Q S)

/-- `AND` or `OR` as the parser has it. -/
abbrev Connective.parsed (left right : Ast.Expr Q) : Ast.Expr Q := .binaryOp left connective.op right

/-- Lower an expression and settle it. -/
def plan (expr : Ast.Expr Q) : Except FerriteError (PhysExpr P) := do
  let lowered ← lowerer.expr interpretation.formats expr
  settle interpretation scope lowered

/-- Lower all operands, then settle them all. -/
def planOperands (operands : List (Ast.Expr Q)) : Except FerriteError (List (PhysExpr P)) := do
  let lowered ← operands.mapM (lowerer.expr interpretation.formats)
  lowered.mapM (settle interpretation scope)

variable {connective interpretation scope row lowerer}

private theorem expr_parsed (formats : TextFormats) (left right : Ast.Expr Q) :
    lowerer.expr formats (connective.parsed left right) =
      (do
        let loweredLeft ← lowerer.expr formats left
        let loweredRight ← lowerer.expr formats right
        pure (connective.planned loweredLeft loweredRight)) := by
  rw [Lowerer.expr]
  cases connective <;> rfl

private theorem builtOver_parsed {tree : Grouping (Ast.Expr Q)} (low : tree.height ≤ Nat.clog 2 tree.leaves.length) :
    BuiltOver connective interpretation.runtime row (planOperands interpretation scope lowerer tree.leaves)
      (plan interpretation scope lowerer (tree.fold connective.parsed)) := by
  rw [plan, planOperands, fold_traverse (expr_parsed interpretation.formats), ← traverse_leaves]
  cases traversed : tree.traverse (lowerer.expr interpretation.formats) with
  | error e => rfl
  | ok lowered =>
    obtain ⟨height, length⟩ := shape_traverse traversed
    refine builtOver_planned ?_
    rw [height, length]
    exact low

private theorem plan_of_leaves_eq {one other : Grouping (Ast.Expr Q)} (same : one.leaves = other.leaves) :
    (plan interpretation scope lowerer (one.fold connective.parsed)).bind (eval interpretation.runtime row) =
      (plan interpretation scope lowerer (other.fold connective.parsed)).bind (eval interpretation.runtime row) := by
  rw [plan, plan, fold_traverse (expr_parsed interpretation.formats),
    fold_traverse (expr_parsed interpretation.formats)]
  obtain ⟨e, one, other⟩ | ⟨first, second, one, other, leaves⟩ :=
    traverse_of_leaves_eq (lowerer.expr interpretation.formats) same
  · rw [one, other]
  · rw [one, other]
    have values := @value_of_leaves_eq S P connective interpretation scope row first second leaves
    rw [value_eq_settle, value_eq_settle] at values
    exact values

end

end

/-! ## The three loops -/

section

variable {S P : Type}

private theorem pairOperands_eq (op : BinaryOp) (operands : List Ferrite.Tree.Expr) :
    Parser.pairOperands op operands = pairUp (.binaryOp · op ·) operands := by
  fun_induction Parser.pairOperands op operands with
  | case1 left right rest ih => rw [pairUp, ih]
  | case2 operands few =>
    rw [pairUp]
    exact few

private theorem foldOperands_eq (op : BinaryOp) (rounds : Nat) (operands : List Ferrite.Tree.Expr) :
    Parser.foldOperands op rounds operands = halve (.binaryOp · op ·) rounds operands := by
  induction rounds generalizing operands with
  | zero => rfl
  | succ rounds ih => rw [Parser.foldOperands, halve, pairOperands_eq, ih]

private theorem pairTests_eq (tests : List (Expr S)) : pairTests tests = pairUp Expr.or tests := by
  fun_induction pairTests tests with
  | case1 first second rest ih => rw [pairUp, ih]
  | case2 tests few =>
    rw [pairUp]
    exact few

private theorem balancedOr_of_halve {rounds : Nat} {tests : List (Expr S)} {built : Expr S}
    (halved : halve Expr.or rounds tests = [built]) : balancedOr rounds tests = built := by
  refine fold_of_halve (fun rounds built => ?_) (fun rounds first second rest => ?_) halved
  · cases rounds <;> rfl
  · exact congrArg (balancedOr rounds) (pairTests_eq (first :: second :: rest))

private theorem pairPhysTests_eq (tests : List (PhysExpr P)) : pairPhysTests tests = pairUp Connective.or.join tests
    := by
  fun_induction pairPhysTests tests with
  | case1 first second rest ih => rw [pairUp, ih]; rfl
  | case2 tests few =>
    rw [pairUp]
    exact few

private theorem balancedPhysOr_of_halve {rounds : Nat} {tests : List (PhysExpr P)} {built : PhysExpr P}
    (halved : halve Connective.or.join rounds tests = [built]) : balancedPhysOr rounds tests = built := by
  refine fold_of_halve (fun rounds built => ?_) (fun rounds first second rest => ?_) halved
  · cases rounds <;> rfl
  · exact congrArg (balancedPhysOr rounds) (pairPhysTests_eq (first :: second :: rest))

/-- What a subquery's test compares with. -/
abbrev equals (tested : PhysExpr P) (value : Value) : PhysExpr P := .binary tested .eq (.literal value)

private theorem foldOperands_balanced (connective : Connective) (first : Ferrite.Tree.Expr)
    (rest : List Ferrite.Tree.Expr) :
    ∃ built, (Parser.foldOperands connective.op (rest.length + 1) (first :: rest)).getLast? = some built ∧
      Balanced connective.parsed (first :: rest) built := by
  obtain ⟨built, halved, balanced⟩ := halve_balanced connective.parsed first rest
  refine ⟨built, ?_, balanced⟩
  rw [foldOperands_eq, halved]
  rfl

private theorem balancedOr_balanced (first : Expr S) (rest : List (Expr S)) :
    Balanced Expr.or (first :: rest) (balancedOr (rest.length + 1) (first :: rest)) := by
  obtain ⟨built, halved, balanced⟩ := halve_balanced Expr.or first rest
  exact balancedOr_of_halve halved ▸ balanced

private theorem valueTest_balanced (tested : PhysExpr P) (value : Value) (values : List Value) :
    ∃ any, (∀ negated, valueTest tested (value :: values) negated = if negated then .not any else any) ∧
      Balanced Connective.or.join (equals tested value :: values.map (equals tested)) any := by
  obtain ⟨any, halved, balanced⟩ :=
    halve_balanced Connective.or.join (equals tested value) (values.map (equals tested))
  have folded : balancedPhysOr (values.length + 1) (equals tested value :: values.map (equals tested)) = any := by
    rw [List.length_map] at halved
    exact balancedPhysOr_of_halve halved
  refine ⟨any, fun negated => ?_, balanced⟩
  rw [← folded]
  rfl

/-- The trees that the parser, the planner and the executor build by halves are low, and
evaluate as the chain of the same operands from left to right: to the same value or error,
with the operands after the deciding one left alone. -/
theorem boolean_runs_are_chains [BEq Ast.Subquery] (interpretation : Interpretation S P) (scope : Scope) (row : Row)
    (lowerer : Lowerer Ast.Subquery S) :
    (∀ (connective : Connective) (first : Ferrite.Tree.Expr) (rest : List Ferrite.Tree.Expr), ∃ built,
      (Parser.foldOperands connective.op (rest.length + 1) (first :: rest)).getLast? = some built ∧
      Balanced connective.parsed (first :: rest) built ∧
      (plan interpretation scope lowerer built).bind (eval interpretation.runtime row) =
        (plan interpretation scope lowerer (rest.foldl connective.parsed first)).bind
          (eval interpretation.runtime row) ∧
      BuiltOver connective interpretation.runtime row (planOperands interpretation scope lowerer (first :: rest))
        (plan interpretation scope lowerer built)) ∧
    (∀ (first : Expr S) (rest : List (Expr S)),
      Balanced Expr.or (first :: rest) (balancedOr (rest.length + 1) (first :: rest)) ∧
      interpretation.value scope row (balancedOr (rest.length + 1) (first :: rest)) =
        interpretation.value scope row (rest.foldl Expr.or first) ∧
      BuiltOver .or interpretation.runtime row ((first :: rest).mapM (settle interpretation scope))
        (settle interpretation scope (balancedOr (rest.length + 1) (first :: rest)))) ∧
    ∀ (tested : PhysExpr P) (value : Value) (values : List Value), ∃ any,
      (∀ negated, valueTest tested (value :: values) negated = if negated then .not any else any) ∧
      Balanced Connective.or.join (equals tested value :: values.map (equals tested)) any ∧
      eval interpretation.runtime row any =
        eval interpretation.runtime row ((values.map (equals tested)).foldl Connective.or.join (equals tested value)) ∧
      RunsOver .or interpretation.runtime row (equals tested value :: values.map (equals tested)) any := by
  refine ⟨fun connective first rest => ?_, fun first rest => ?_, fun tested value values => ?_⟩
  · obtain ⟨built, folded, tree, same, leaves, low⟩ := foldOperands_balanced connective first rest
    refine ⟨built, folded, ⟨tree, same, leaves, low⟩, ?_, ?_⟩
    · rw [same, ← fold_chain]
      exact plan_of_leaves_eq (leaves.trans (leaves_chain first rest).symm)
    · rw [same, ← leaves]
      exact builtOver_parsed (leaves ▸ low)
  · obtain ⟨tree, same, leaves, low⟩ := balancedOr_balanced first rest
    refine ⟨⟨tree, same, leaves, low⟩, ?_, ?_⟩
    · rw [same, ← fold_chain]
      exact @value_of_leaves_eq S P .or interpretation scope row tree _
        (leaves.trans (leaves_chain first rest).symm)
    · rw [same, ← leaves]
      exact @builtOver_planned S P .or interpretation scope row tree (leaves ▸ low)
  · obtain ⟨any, tests, tree, same, leaves, low⟩ := valueTest_balanced tested value values
    refine ⟨any, tests, ⟨tree, same, leaves, low⟩, ?_, ?_⟩
    · rw [same, ← fold_chain]
      exact eval_of_leaves_eq (leaves.trans (leaves_chain _ _).symm)
    · rw [same, ← leaves]
      exact runsOver_of_tree (leaves ▸ low)

end

end Ferrite.Eval
