import Ferrite.Sql.Tree

/-!
# Visiting every expression of a statement

`for_each_expr` and the walks below it (`ferrite-server/src/describe.rs`): the
expressions of a statement in the order they are visited, those of nested queries
included.
-/

namespace Ferrite.Tree

open Ast (Subquery FunctionCall FunctionArgs)

mutual

def walkSubquery : Subquery → List Expr
  | .mk query => walkQuery query

def walkQuery : Query → List Expr
  | .mk ctes body orderBy limit offset =>
    walkCtes ctes ++ walkSetExpr body ++ walkOrderBy orderBy ++ walkOption limit ++ walkOption offset

def walkCtes : List Cte → List Expr
  | [] => []
  | cte :: ctes => walkCte cte ++ walkCtes ctes

def walkCte : Cte → List Expr
  | ⟨_, _, query⟩ => walkSubquery query

def walkSetExpr : SetExpr → List Expr
  | .select select => walkSelect select
  | .query query => walkQuery query
  | .setOp _ _ left right => walkSetExpr left ++ walkSetExpr right

def walkSelect : Select → List Expr
  | ⟨_, projection, sources, selection, groupBy, having⟩ =>
    walkItems projection ++ walkSources sources ++ walkOption selection ++ walkOption having ++ walkList groupBy

def walkSources : List TableWithJoins → List Expr
  | [] => []
  | source :: sources => walkSource source ++ walkSources sources

def walkSource : TableWithJoins → List Expr
  | ⟨relation, joins⟩ => walkTableFactor relation ++ walkJoins joins

def walkJoins : List Join → List Expr
  | [] => []
  | join :: joins => walkJoin join ++ walkJoins joins

def walkJoin : Join → List Expr
  | ⟨_, relation, constraint⟩ => walkTableFactor relation ++ walkConstraint constraint

def walkConstraint : JoinConstraint → List Expr
  | .on expr => walkExpr expr
  | .using _ | .none => []

def walkTableFactor : TableFactor → List Expr
  | .table _ _ => []
  | .derived subquery _ => walkSubquery subquery

def walkItems : List SelectItem → List Expr
  | [] => []
  | item :: items => walkItem item ++ walkItems items

def walkItem : SelectItem → List Expr
  | .wildcard | .qualifiedWildcard _ => []
  | .expr expr _ => walkExpr expr

def walkOrderBy : List OrderByItem → List Expr
  | [] => []
  | item :: items => walkOrderByItem item ++ walkOrderBy items

def walkOrderByItem : OrderByItem → List Expr
  | ⟨expr, _, _⟩ => walkExpr expr

def walkExpr : Expr → List Expr
  | .literal value => [.literal value]
  | .column name => [.column name]
  | .parameter number => [.parameter number]
  | .unaryOp op expr => .unaryOp op expr :: walkExpr expr
  | .isNull expr negated => .isNull expr negated :: walkExpr expr
  | .collate expr collation => .collate expr collation :: walkExpr expr
  | .cast expr dataType => .cast expr dataType :: walkExpr expr
  | .binaryOp left op right => .binaryOp left op right :: (walkExpr left ++ walkExpr right)
  | .between expr negated low high =>
    .between expr negated low high :: (walkExpr expr ++ walkExpr low ++ walkExpr high)
  | .inList expr list negated => .inList expr list negated :: (walkExpr expr ++ walkList list)
  | .inSubquery expr subquery negated => .inSubquery expr subquery negated :: (walkExpr expr ++ walkSubquery subquery)
  | .exists subquery negated => .exists subquery negated :: walkSubquery subquery
  | .subquery subquery => .subquery subquery :: walkSubquery subquery
  | .like expr pattern negated caseInsensitive =>
    .like expr pattern negated caseInsensitive :: (walkExpr expr ++ walkExpr pattern)
  | .caseWhen operand branches elseResult =>
    .caseWhen operand branches elseResult :: (walkOption operand ++ walkOption elseResult ++ walkBranches branches)
  | .function call => .function call :: walkCall call

def walkCall : FunctionCall Expr → List Expr
  | ⟨_, args, _⟩ => walkArgs args

def walkArgs : FunctionArgs Expr → List Expr
  | .wildcard => []
  | .list args => walkList args

def walkOption : Option Expr → List Expr
  | none => []
  | some expr => walkExpr expr

def walkBranches : List (Expr × Expr) → List Expr
  | [] => []
  | (when, result) :: branches => walkExpr when ++ walkExpr result ++ walkBranches branches

def walkList : List Expr → List Expr
  | [] => []
  | expr :: rest => walkExpr expr ++ walkList rest

end

/-- Every expression of a statement that is described. -/
def forEachExpr : Statement → List Expr
  | .query query => walkQuery query
  | .insert ⟨_, _, .values rows, returning, _⟩ => rows.flatMap walkList ++ walkItems returning
  | .insert ⟨_, _, .query query, returning, _⟩ => walkSubquery query ++ walkItems returning
  | .update ⟨_, _, assignments, selection, returning⟩ =>
    assignments.flatMap (fun assignment => walkExpr assignment.value) ++ walkOption selection ++ walkItems returning
  | .delete ⟨_, _, selection, returning⟩ => walkOption selection ++ walkItems returning
  | .call ⟨_, args⟩ => walkList args
  | _ => []

end Ferrite.Tree
