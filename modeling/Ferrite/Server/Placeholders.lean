import Ferrite.Server.Describe
import Ferrite.Sql.Quoting

/-!
# The placeholders of a statement

The highest `$n` of a statement over every place the planner lowers an expression from, and
how it compares with the number of parameters the statement is described to have: the
lowering of an expression looks at no parameter beyond its highest placeholder. The walk
of `describe.rs` passes by the `ON CONFLICT` clause of an `INSERT`, and the lists made for a
`Parse` message are as long as the number of a placeholder says, however short the text.
-/

namespace Ferrite.Tree

open Ast (Subquery FunctionCall FunctionArgs)

mutual

def highestSubquery : Subquery → Nat
  | .mk query => highestQuery query

def highestQuery : Query → Nat
  | .mk ctes body orderBy limit offset =>
    max (highestCtes ctes) (max (highestSetExpr body)
      (max (highestOrderBy orderBy) (max (highestOption limit) (highestOption offset))))

def highestCtes : List Cte → Nat
  | [] => 0
  | cte :: ctes => max (highestCte cte) (highestCtes ctes)

def highestCte : Cte → Nat
  | ⟨_, _, query⟩ => highestSubquery query

def highestSetExpr : SetExpr → Nat
  | .select select => highestSelect select
  | .query query => highestQuery query
  | .setOp _ _ left right => max (highestSetExpr left) (highestSetExpr right)

def highestSelect : Select → Nat
  | ⟨_, projection, sources, selection, groupBy, having⟩ =>
    max (highestItems projection) (max (highestSources sources)
      (max (highestOption selection) (max (highestList groupBy) (highestOption having))))

def highestSources : List TableWithJoins → Nat
  | [] => 0
  | source :: sources => max (highestSource source) (highestSources sources)

def highestSource : TableWithJoins → Nat
  | ⟨relation, joins⟩ => max (highestTableFactor relation) (highestJoins joins)

def highestJoins : List Join → Nat
  | [] => 0
  | join :: joins => max (highestJoin join) (highestJoins joins)

def highestJoin : Join → Nat
  | ⟨_, relation, constraint⟩ => max (highestTableFactor relation) (highestConstraint constraint)

def highestConstraint : JoinConstraint → Nat
  | .on expr => highestExpr expr
  | .using _ | .none => 0

def highestTableFactor : TableFactor → Nat
  | .table _ _ => 0
  | .derived subquery _ => highestSubquery subquery

def highestItems : List SelectItem → Nat
  | [] => 0
  | item :: items => max (highestItem item) (highestItems items)

def highestItem : SelectItem → Nat
  | .wildcard | .qualifiedWildcard _ => 0
  | .expr expr _ => highestExpr expr

def highestOrderBy : List OrderByItem → Nat
  | [] => 0
  | item :: items => max (highestOrderByItem item) (highestOrderBy items)

def highestOrderByItem : OrderByItem → Nat
  | ⟨expr, _, _⟩ => highestExpr expr

def highestExpr : Expr → Nat
  | .literal _ | .column _ => 0
  | .parameter number => number.toNat
  | .unaryOp _ expr | .isNull expr _ | .collate expr _ | .cast expr _ => highestExpr expr
  | .binaryOp left _ right => max (highestExpr left) (highestExpr right)
  | .between expr _ low high => max (highestExpr expr) (max (highestExpr low) (highestExpr high))
  | .inList expr list _ => max (highestExpr expr) (highestList list)
  | .inSubquery expr subquery _ => max (highestExpr expr) (highestSubquery subquery)
  | .exists subquery _ | .subquery subquery => highestSubquery subquery
  | .like expr pattern _ _ => max (highestExpr expr) (highestExpr pattern)
  | .caseWhen operand branches elseResult =>
    max (highestOption operand) (max (highestBranches branches) (highestOption elseResult))
  | .function call => highestCall call

def highestCall : FunctionCall Expr → Nat
  | ⟨_, args, _⟩ => highestArgs args

def highestArgs : FunctionArgs Expr → Nat
  | .wildcard => 0
  | .list args => highestList args

def highestOption : Option Expr → Nat
  | none => 0
  | some expr => highestExpr expr

def highestBranches : List (Expr × Expr) → Nat
  | [] => 0
  | (when, result) :: branches => max (max (highestExpr when) (highestExpr result)) (highestBranches branches)

def highestList : List Expr → Nat
  | [] => 0
  | expr :: rest => max (highestExpr expr) (highestList rest)

end

def highestAssignments (assignments : List Assignment) : Nat := highestList (assignments.map Ast.Assignment.value)

def highestRows (rows : List (List Expr)) : Nat := (rows.map highestList).foldr max 0

/-- The placeholders of an `ON CONFLICT` clause. -/
def highestConflict : Option OnConflict → Nat
  | some ⟨_, .update assignments selection⟩ => max (highestAssignments assignments) (highestOption selection)
  | some ⟨_, .nothing⟩ | none => 0

/-- The placeholders of a statement's `ON CONFLICT` clause. -/
def Statement.highestInConflict : Statement → Nat
  | .insert given => highestConflict given.onConflict
  | _ => 0

/-- The placeholders of everything else a statement is planned from. -/
def Statement.highestElsewhere : Statement → Nat
  | .query inner => highestQuery inner
  | .insert ⟨_, _, .values rows, returning, _⟩ => max (highestRows rows) (highestItems returning)
  | .insert ⟨_, _, .query inner, returning, _⟩ => max (highestSubquery inner) (highestItems returning)
  | .update ⟨_, _, assignments, selection, returning⟩ =>
    max (highestAssignments assignments) (max (highestOption selection) (highestItems returning))
  | .delete ⟨_, _, selection, returning⟩ => max (highestOption selection) (highestItems returning)
  | .call ⟨_, args⟩ => highestList args
  | _ => 0

def Statement.highest (statement : Statement) : Nat := max statement.highestElsewhere statement.highestInConflict

end Ferrite.Tree

namespace Ferrite.Plan.Lowerer

open Sql (TextFormats)
open Ast (Subquery)
open Ferrite.Tree

variable {S : Type}

/-- The same with more parameters bound, and nested queries planned with those. -/
def extended (lowerer : Lowerer Subquery S) (more : List Value) (nested : Subquery → Except FerriteError S) :
    Lowerer Subquery S :=
  { lowerer with params := lowerer.params ++ more, subqueries := lowerer.subqueries.map fun _ => nested }

/-- A parameter that is bound is found, and is not looked for among further ones. -/
theorem parameter_extended (lowerer : Lowerer Subquery S) (more : List Value)
    (nested : Subquery → Except FerriteError S) {number : UInt32} (bound : number.toNat ≤ lowerer.params.length) :
    (lowerer.extended more nested).parameter number = lowerer.parameter number := by
  rw [parameter, parameter]
  split
  · rfl
  · rename_i positive
    have : number.toNat ≠ 0 := fun zero => positive (UInt32.toNat_inj.mp zero)
    rw [extended, List.getElem?_append_left (by omega)]

/-- Lowering an expression looks at no parameter beyond its highest placeholder. -/
theorem expr_extended [BEq Subquery] (formats : TextFormats) (lowerer : Lowerer Subquery S) (more : List Value)
    {nested : Subquery → Except FerriteError S} {bound : Nat} (enough : bound ≤ lowerer.params.length)
    (same : ∀ build ∈ lowerer.subqueries, ∀ query, highestSubquery query ≤ bound → nested query = build query) :
    ∀ expr, highestExpr expr ≤ bound → (lowerer.extended more nested).expr formats expr = lowerer.expr formats expr := by
  have found (number : UInt32) (small : number.toNat ≤ bound) :=
    parameter_extended lowerer more nested (small.trans enough)
  generalize isLarger : lowerer.extended more nested = larger at found
  -- along the recursion of the lowering, which both lowerers share
  refine (expr.mutual_induct lowerer
    (fun expr => highestExpr expr ≤ bound → larger.expr formats expr = lowerer.expr formats expr)
    (fun call => highestCall call ≤ bound → larger.function formats call = lowerer.function formats call)
    (fun name distinct args => highestArgs args ≤ bound →
      larger.scalarCall formats name distinct args = lowerer.scalarCall formats name distinct args)
    (fun list => highestList list ≤ bound → larger.exprs formats list = lowerer.exprs formats list)
    (fun branches => highestBranches branches ≤ bound →
      larger.exprBranches formats branches = lowerer.exprBranches formats branches)
    (fun option => highestOption option ≤ bound → larger.option formats option = lowerer.option formats option)
    ?_ ?_ ?_ ?_ ?_ ?_ ?_ ?_ ?_ ?_ ?_ ?_ ?_ ?_ ?_ ?_ ?_ ?_ ?_ ?_ ?_ ?_ ?_ ?_ ?_ ?_ ?_ ?_ ?_).1
  case refine_16 =>
    intro inner query negated build isBuild ih small
    obtain ⟨smallInner, smallQuery⟩ := max_le_iff.mp small
    have planned : larger.subqueries = some nested := by simp [← isLarger, extended, isBuild]
    simp only [expr, ih smallInner, planned, isBuild, same build isBuild query smallQuery]
  all_goals
    intros
    simp only [highestExpr, highestCall, highestArgs, highestList, highestBranches, highestOption, max_le_iff] at *
    simp only [expr, function, scalarCall, exprs, exprBranches, option]
  all_goals grind [extended, column, aggregateSlot]

end Ferrite.Plan.Lowerer

namespace Ferrite.Server

open Plan (Planner Lowerer)
open Sql (TextFormats)
open Ast (Subquery FunctionCall FunctionArgs)
open Ferrite.Tree

/-- The highest placeholder among visited expressions. -/
def peak : List Expr → Nat
  | [] => 0
  | expr :: rest => max ((placeholder expr).elim 0 UInt32.toNat) (peak rest)

@[simp] theorem peak_nil : peak [] = 0 := rfl

@[simp] theorem peak_cons (expr : Expr) (rest : List Expr) :
    peak (expr :: rest) = max ((placeholder expr).elim 0 UInt32.toNat) (peak rest) := rfl

@[simp] theorem peak_append (first second : List Expr) : peak (first ++ second) = max (peak first) (peak second) := by
  induction first with
  | nil => simp
  | cons expr rest ih => rw [List.cons_append, peak_cons, ih, peak_cons, max_assoc]

private theorem count_eq_peak (statement : Statement) : count statement = peak (forEachExpr statement) := by
  have folded : ∀ (exprs : List Expr) (highest : Nat),
      (exprs.filterMap placeholder).foldl (fun highest number => max highest number.toNat) highest =
        max highest (peak exprs) := by
    intro exprs
    induction exprs with
    | nil => simp
    | cons expr rest ih =>
      intro highest
      cases found : placeholder expr with
      | none => simp [found, ih]
      | some number => simp [found, ih, max_assoc]
  rw [count, folded, Nat.zero_max]

/-! ## The walk visits every placeholder -/

mutual

theorem peak_walkSubquery : (subquery : Subquery) → peak (walkSubquery subquery) = highestSubquery subquery
  | .mk query => peak_walkQuery query

theorem peak_walkQuery : (query : Query) → peak (walkQuery query) = highestQuery query
  | .mk ctes body orderBy limit offset => by
    simp only [walkQuery, highestQuery, peak_append, peak_walkCtes ctes, peak_walkSetExpr body,
      peak_walkOrderBy orderBy, peak_walkOption limit, peak_walkOption offset, max_assoc]

theorem peak_walkCtes : (ctes : List Cte) → peak (walkCtes ctes) = highestCtes ctes
  | [] => rfl
  | cte :: ctes => by simp only [walkCtes, highestCtes, peak_append, peak_walkCte cte, peak_walkCtes ctes]

theorem peak_walkCte : (cte : Cte) → peak (walkCte cte) = highestCte cte
  | ⟨_, _, query⟩ => peak_walkSubquery query

theorem peak_walkSetExpr : (body : SetExpr) → peak (walkSetExpr body) = highestSetExpr body
  | .select select => peak_walkSelect select
  | .query query => peak_walkQuery query
  | .setOp _ _ left right => by
    simp only [walkSetExpr, highestSetExpr, peak_append, peak_walkSetExpr left, peak_walkSetExpr right]

theorem peak_walkSelect : (select : Select) → peak (walkSelect select) = highestSelect select
  | ⟨_, projection, sources, selection, groupBy, having⟩ => by
    simp only [walkSelect, highestSelect, peak_append, peak_walkItems projection, peak_walkSources sources,
      peak_walkOption selection, peak_walkList groupBy, peak_walkOption having, max_assoc]
    rw [max_comm (highestOption having)]

theorem peak_walkSources : (sources : List TableWithJoins) → peak (walkSources sources) = highestSources sources
  | [] => rfl
  | source :: sources => by
    simp only [walkSources, highestSources, peak_append, peak_walkSource source, peak_walkSources sources]

theorem peak_walkSource : (source : TableWithJoins) → peak (walkSource source) = highestSource source
  | ⟨relation, joins⟩ => by
    simp only [walkSource, highestSource, peak_append, peak_walkTableFactor relation, peak_walkJoins joins]

theorem peak_walkJoins : (joins : List Join) → peak (walkJoins joins) = highestJoins joins
  | [] => rfl
  | join :: joins => by simp only [walkJoins, highestJoins, peak_append, peak_walkJoin join, peak_walkJoins joins]

theorem peak_walkJoin : (join : Join) → peak (walkJoin join) = highestJoin join
  | ⟨_, relation, constraint⟩ => by
    simp only [walkJoin, highestJoin, peak_append, peak_walkTableFactor relation, peak_walkConstraint constraint]

theorem peak_walkConstraint : (constraint : JoinConstraint) →
    peak (walkConstraint constraint) = highestConstraint constraint
  | .on expr => peak_walkExpr expr
  | .using _ | .none => rfl

theorem peak_walkTableFactor : (factor : TableFactor) → peak (walkTableFactor factor) = highestTableFactor factor
  | .table _ _ => rfl
  | .derived subquery _ => peak_walkSubquery subquery

theorem peak_walkItems : (items : List SelectItem) → peak (walkItems items) = highestItems items
  | [] => rfl
  | item :: items => by simp only [walkItems, highestItems, peak_append, peak_walkItem item, peak_walkItems items]

theorem peak_walkItem : (item : SelectItem) → peak (walkItem item) = highestItem item
  | .wildcard | .qualifiedWildcard _ => rfl
  | .expr expr _ => peak_walkExpr expr

theorem peak_walkOrderBy : (items : List OrderByItem) → peak (walkOrderBy items) = highestOrderBy items
  | [] => rfl
  | item :: items => by
    simp only [walkOrderBy, highestOrderBy, peak_append, peak_walkOrderByItem item, peak_walkOrderBy items]

theorem peak_walkOrderByItem : (item : OrderByItem) → peak (walkOrderByItem item) = highestOrderByItem item
  | ⟨expr, _, _⟩ => peak_walkExpr expr

theorem peak_walkExpr : (expr : Expr) → peak (walkExpr expr) = highestExpr expr
  | .literal _ => rfl
  | .column _ => rfl
  | .parameter number => by simp [walkExpr, highestExpr, placeholder]
  | .unaryOp _ expr => by simp [walkExpr, highestExpr, placeholder, peak_walkExpr expr]
  | .isNull expr _ => by simp [walkExpr, highestExpr, placeholder, peak_walkExpr expr]
  | .collate expr _ => by simp [walkExpr, highestExpr, placeholder, peak_walkExpr expr]
  | .cast expr _ => by simp [walkExpr, highestExpr, placeholder, peak_walkExpr expr]
  | .binaryOp left _ right => by simp [walkExpr, highestExpr, placeholder, peak_walkExpr left, peak_walkExpr right]
  | .between expr _ low high => by
    simp [walkExpr, highestExpr, placeholder, peak_walkExpr expr, peak_walkExpr low, peak_walkExpr high]
  | .inList expr list _ => by simp [walkExpr, highestExpr, placeholder, peak_walkExpr expr, peak_walkList list]
  | .inSubquery expr subquery _ => by
    simp [walkExpr, highestExpr, placeholder, peak_walkExpr expr, peak_walkSubquery subquery]
  | .exists subquery _ => by simp [walkExpr, highestExpr, placeholder, peak_walkSubquery subquery]
  | .subquery subquery => by simp [walkExpr, highestExpr, placeholder, peak_walkSubquery subquery]
  | .like expr pattern _ _ => by simp [walkExpr, highestExpr, placeholder, peak_walkExpr expr, peak_walkExpr pattern]
  | .caseWhen operand branches elseResult => by
    simp [walkExpr, highestExpr, placeholder, peak_walkOption operand, peak_walkOption elseResult,
      peak_walkBranches branches, max_comm (highestBranches branches)]
  | .function call => by simp [walkExpr, highestExpr, placeholder, peak_walkCall call]

theorem peak_walkCall : (call : FunctionCall Expr) → peak (walkCall call) = highestCall call
  | ⟨_, args, _⟩ => peak_walkArgs args

theorem peak_walkArgs : (args : FunctionArgs Expr) → peak (walkArgs args) = highestArgs args
  | .wildcard => rfl
  | .list args => peak_walkList args

theorem peak_walkOption : (option : Option Expr) → peak (walkOption option) = highestOption option
  | none => rfl
  | some expr => peak_walkExpr expr

theorem peak_walkBranches : (branches : List (Expr × Expr)) → peak (walkBranches branches) = highestBranches branches
  | [] => rfl
  | (when, result) :: branches => by
    simp only [walkBranches, highestBranches, peak_append, peak_walkExpr when, peak_walkExpr result,
      peak_walkBranches branches]

theorem peak_walkList : (list : List Expr) → peak (walkList list) = highestList list
  | [] => rfl
  | expr :: rest => by simp only [walkList, highestList, peak_append, peak_walkExpr expr, peak_walkList rest]

end

private theorem peak_walkRows (rows : List (List Expr)) : peak (rows.flatMap walkList) = highestRows rows := by
  induction rows with
  | nil => rfl
  | cons row rows ih =>
    rw [List.flatMap_cons, peak_append, ih, peak_walkList]
    rfl

private theorem peak_walkAssignments (assignments : List Assignment) :
    peak (assignments.flatMap fun assignment => walkExpr assignment.value) = highestAssignments assignments := by
  induction assignments with
  | nil => rfl
  | cons assignment assignments ih =>
    rw [List.flatMap_cons, peak_append, ih, peak_walkExpr]
    rfl

private theorem count_eq_highestElsewhere (statement : Statement) : count statement = statement.highestElsewhere := by
  rw [count_eq_peak]
  cases statement with
  | query query => exact peak_walkQuery query
  | insert insert =>
    obtain ⟨table, columns, source, returning, onConflict⟩ := insert
    cases source with
    | values rows => rw [forEachExpr, peak_append, peak_walkRows, peak_walkItems]; rfl
    | query query => rw [forEachExpr, peak_append, peak_walkSubquery, peak_walkItems]; rfl
  | update update =>
    rw [forEachExpr, peak_append, peak_append, peak_walkAssignments, peak_walkOption, peak_walkItems, max_assoc]
    rfl
  | delete delete => rw [forEachExpr, peak_append, peak_walkOption, peak_walkItems]; rfl
  | call call => exact peak_walkList call.args
  | _ => rfl

/-- A planner over a catalog without tables, which plans no nested query. -/
def tableless : Planner Subquery Empty Empty :=
  { Planner.bare with subquery := fun _ => .error (Plan.unsupported "a subquery here") }

/-- Describing compares nested queries only to collect aggregates. -/
abbrev uncompared : BEq Subquery := ⟨fun _ _ => false⟩

/-- `INSERT INTO t (k) VALUES ($value) ON CONFLICT (k) DO UPDATE SET k = $set`. -/
def upsert (value set : UInt32) : Statement :=
  .insert ⟨⟨["t"]⟩, ["k"], .values [[.parameter value]], [], some ⟨["k"], .update [⟨"k", .parameter set⟩] none⟩⟩

/-- A planner over a table `t (k INT)`, with these parameters. -/
def onTable (params : List Value) : Planner Subquery Empty Empty :=
  { tableless with
    tableId := fun _ _ => .ok (some 1)
    tableSchema := fun _ => .ok ⟨[⟨"k", .int4, true, none⟩]⟩
    params := params }

/-- Every list made for a `Parse` message stays within a multiple of its size exactly if
the highest placeholder of its last statement, outside an `ON CONFLICT` clause, does. -/
theorem prepared_lists_bounded_iff {S P : Type} [BEq Subquery] [BEq S] (planner : Planner Subquery S P)
    (alphabet : Alphabet) (text : String) (declared : List Int) (constant : Nat) (positive : 0 < constant)
    (described : Described) (merged : List DataType)
    (prepared : prepare planner alphabet text declared = .ok (described, merged)) :
    let bound := constant * (text.utf8ByteSize + declared.length + 1)
    (described.parameterTypes.length ≤ bound ∧ described.standIns.length ≤ bound ∧ merged.length ≤ bound) ↔
      ∀ statements last, parse alphabet text = .ok statements → statements.getLast? = some last →
        last.highestElsewhere ≤ bound := by
  intro bound
  have declares : declared.length ≤ bound :=
    Nat.le_trans (by omega) (Nat.le_mul_of_pos_left (text.utf8ByteSize + declared.length + 1) positive)
  obtain ⟨types, standIns, merges⟩ := length_prepare prepared
  rw [types, standIns, merges, max_le_iff, describedCount]
  constructor
  · rintro ⟨small, -⟩ statements last parsed isLast
    simpa [parsed, isLast, count_eq_highestElsewhere] using small
  · intro small
    have counted : describedCount alphabet text ≤ bound := by
      rw [describedCount]
      split
      · rename_i statements parsed
        cases isLast : statements.getLast? with
        | none => exact Nat.zero_le _
        | some last => simpa [count_eq_highestElsewhere] using small statements last parsed isLast
      · exact Nat.zero_le _
    exact ⟨counted, counted, declares, counted⟩

/-- A text that parses is prepared. -/
theorem prepare_of_parse {S P : Type} [BEq Subquery] [BEq S] (planner : Planner Subquery S P) {alphabet : Alphabet}
    {text : String} {statements : List Statement} (parsed : parse alphabet text = .ok statements) (declared : List Int) :
    ∃ described merged, prepare planner alphabet text declared = .ok (described, merged) := by
  rw [prepare, describeStatement, parsed]
  dsimp only
  cases statements.getLast? <;> exact ⟨_, _, rfl⟩

/-- The lists for `begin; select $2, $1` with one declared type are no longer than the
text and its declarations. -/
theorem two_placeholders_are_bounded : ∃ described merged,
    @prepare Empty Empty tableless uncompared _ Lexer.asciiAlphabet "begin; select $2, $1" [23] =
        .ok (described, merged) ∧
      described.parameterTypes.length ≤ 22 ∧ described.standIns.length ≤ 22 ∧ merged.length ≤ 22 := by
  have parsed : parse Lexer.asciiAlphabet "begin; select $2, $1" = .ok [.begin, .query (.mk []
      (.select ⟨false, [.expr (.parameter 2) none, .expr (.parameter 1) none], [], none, [], none⟩) [] none none)] :=
    rfl
  obtain ⟨described, merged, prepared⟩ := @prepare_of_parse _ _ uncompared _ tableless _ _ _ parsed [23]
  refine ⟨described, merged, prepared, ?_⟩
  refine (@prepared_lists_bounded_iff _ _ uncompared _ tableless _ _ _ 1 Nat.one_pos _ _ prepared).mpr ?_
  intro statements last isParsed isLast
  rw [parsed] at isParsed
  cases isParsed
  cases isLast
  decide

/-- An 18-byte text makes three lists of 4294967295 elements. -/
theorem highest_placeholder_fills_the_lists : ∃ described merged,
    @prepare Empty Empty tableless uncompared _ Lexer.asciiAlphabet "select $4294967295" [] =
        .ok (described, merged) ∧
      described.parameterTypes.length = 4294967295 ∧ described.standIns.length = 4294967295 ∧
      merged.length = 4294967295 := by
  have parsed : parse Lexer.asciiAlphabet "select $4294967295" = .ok [.query (.mk []
      (.select ⟨false, [.expr (.parameter 4294967295) none], [], none, [], none⟩) [] none none)] := rfl
  have counted : describedCount Lexer.asciiAlphabet "select $4294967295" = 4294967295 := by
    rw [describedCount, parsed]
    exact (count_eq_highestElsewhere _).trans (by decide)
  obtain ⟨described, merged, prepared⟩ := @prepare_of_parse _ _ uncompared _ tableless _ _ _ parsed []
  obtain ⟨types, standIns, merges⟩ := @length_prepare _ _ uncompared _ _ _ _ _ _ _ prepared
  rw [counted] at types standIns merges
  exact ⟨described, merged, prepared, types, standIns, merges⟩

end Ferrite.Server
