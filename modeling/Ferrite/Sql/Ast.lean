import Ferrite.Plan.Logical

/-!
# The parsed statement tree

The queries and row-changing statements of `ferrite-sql/src/ast.rs`, expression by
expression. Operators and join types are the planner's: the two crates declare the
same members. `Q` stands for the queries nested in an expression.
-/

namespace Ferrite.Ast

open Sql Plan

inductive UnaryOp where
  | plus
  | minus
  | not
deriving DecidableEq

/-- The `*` of `count(*)`, or a list. -/
inductive FunctionArgs (E : Type) where
  | wildcard
  | list (args : List E)

structure FunctionCall (E : Type) where
  name : String
  args : FunctionArgs E
  distinct : Bool

inductive Expr (Q : Type) where
  | literal (literal : Literal)
  | column (name : ObjectName)
  | parameter (number : UInt32)
  | unaryOp (op : UnaryOp) (expr : Expr Q)
  | binaryOp (left : Expr Q) (op : BinaryOp) (right : Expr Q)
  | isNull (expr : Expr Q) (negated : Bool)
  | between (expr : Expr Q) (negated : Bool) (low high : Expr Q)
  | inList (expr : Expr Q) (list : List (Expr Q)) (negated : Bool)
  | inSubquery (expr : Expr Q) (subquery : Q) (negated : Bool)
  | exists (subquery : Q) (negated : Bool)
  | like (expr pattern : Expr Q) (negated caseInsensitive : Bool)
  | collate (expr : Expr Q) (collation : String)
  | caseWhen (operand : Option (Expr Q)) (branches : List (Expr Q × Expr Q)) (elseResult : Option (Expr Q))
  | cast (expr : Expr Q) (dataType : DataType)
  | function (call : FunctionCall (Expr Q))
  | subquery (subquery : Q)

/-- The functions computed over a group. -/
def isAggregate (name : String) : Bool :=
  name == "count" || name == "sum" || name == "avg" || name == "min" || name == "max"

namespace Expr

variable {Q : Type}

section

variable [BEq Q]

mutual

/-- The derived `PartialEq`. -/
def same : Expr Q → Expr Q → Bool
  | .literal left, .literal right => (literalValue left).eq (literalValue right)
  | .column left, .column right => left == right
  | .parameter left, .parameter right => left == right
  | .unaryOp op expr, .unaryOp op' expr' => op == op' && expr.same expr'
  | .binaryOp left op right, .binaryOp left' op' right' => left.same left' && op == op' && right.same right'
  | .isNull expr negated, .isNull expr' negated' => expr.same expr' && negated == negated'
  | .between expr negated low high, .between expr' negated' low' high' =>
    expr.same expr' && negated == negated' && low.same low' && high.same high'
  | .inList expr list negated, .inList expr' list' negated' =>
    expr.same expr' && sameList list list' && negated == negated'
  | .inSubquery expr query negated, .inSubquery expr' query' negated' =>
    expr.same expr' && query == query' && negated == negated'
  | .exists query negated, .exists query' negated' => query == query' && negated == negated'
  | .like expr pattern negated caseInsensitive, .like expr' pattern' negated' caseInsensitive' =>
    expr.same expr' && pattern.same pattern' && negated == negated' && caseInsensitive == caseInsensitive'
  | .collate expr collation, .collate expr' collation' => expr.same expr' && collation == collation'
  | .caseWhen operand branches elseResult, .caseWhen operand' branches' elseResult' =>
    sameOption operand operand' && sameBranches branches branches' && sameOption elseResult elseResult'
  | .cast expr dataType, .cast expr' dataType' => expr.same expr' && dataType == dataType'
  | .function call, .function call' => sameCall call call'
  | .subquery query, .subquery query' => query == query'
  | _, _ => false
termination_by structural expr => expr

def sameCall : FunctionCall (Expr Q) → FunctionCall (Expr Q) → Bool
  | ⟨name, args, distinct⟩, call => name == call.name && sameCallArgs args call.args && distinct == call.distinct
termination_by structural call => call

def sameCallArgs : FunctionArgs (Expr Q) → FunctionArgs (Expr Q) → Bool
  | .wildcard, .wildcard => true
  | .list left, .list right => sameList left right
  | _, _ => false
termination_by structural args => args

def sameOption : Option (Expr Q) → Option (Expr Q) → Bool
  | none, none => true
  | some left, some right => left.same right
  | _, _ => false
termination_by structural option => option

def sameBranches : List (Expr Q × Expr Q) → List (Expr Q × Expr Q) → Bool
  | [], [] => true
  | (when, result) :: rest, (when', result') :: rest' =>
    when.same when' && result.same result' && sameBranches rest rest'
  | _, _ => false
termination_by structural branches => branches

def sameList : List (Expr Q) → List (Expr Q) → Bool
  | [], [] => true
  | left :: rest, right :: rest' => left.same right && sameList rest rest'
  | _, _ => false
termination_by structural list => list

end

end

mutual

/-- The expressions `walk` visits, in its order; it does not enter subqueries. -/
def walk : Expr Q → List (Expr Q)
  | .literal value => [.literal value]
  | .column name => [.column name]
  | .parameter number => [.parameter number]
  | .subquery query => [.subquery query]
  | .exists query negated => [.exists query negated]
  | .unaryOp op expr => .unaryOp op expr :: expr.walk
  | .isNull expr negated => .isNull expr negated :: expr.walk
  | .cast expr dataType => .cast expr dataType :: expr.walk
  | .collate expr collation => .collate expr collation :: expr.walk
  | .inSubquery expr query negated => .inSubquery expr query negated :: expr.walk
  | .binaryOp left op right => .binaryOp left op right :: (left.walk ++ right.walk)
  | .between expr negated low high => .between expr negated low high :: (expr.walk ++ low.walk ++ high.walk)
  | .inList expr list negated => .inList expr list negated :: (expr.walk ++ walkList list)
  | .like expr pattern negated caseInsensitive =>
    .like expr pattern negated caseInsensitive :: (expr.walk ++ pattern.walk)
  | .caseWhen operand branches elseResult =>
    .caseWhen operand branches elseResult :: (walkOption operand ++ walkOption elseResult ++ walkBranches branches)
  | .function call => .function call :: walkCall call

def walkCall : FunctionCall (Expr Q) → List (Expr Q)
  | ⟨_, args, _⟩ => walkArgs args

def walkArgs : FunctionArgs (Expr Q) → List (Expr Q)
  | .wildcard => []
  | .list args => walkList args

def walkOption : Option (Expr Q) → List (Expr Q)
  | none => []
  | some expr => expr.walk

def walkBranches : List (Expr Q × Expr Q) → List (Expr Q)
  | [] => []
  | (when, result) :: rest => when.walk ++ result.walk ++ walkBranches rest

def walkList : List (Expr Q) → List (Expr Q)
  | [] => []
  | expr :: rest => expr.walk ++ walkList rest

end

/-- An aggregate call, if the expression itself is one. -/
def aggregateCall : Expr Q → Option (FunctionCall (Expr Q))
  | .function call => if isAggregate call.name then some call else none
  | _ => none

def containsAggregate (expr : Expr Q) : Bool := expr.walk.any fun part => part.aggregateCall.isSome

end Expr

/-! ## Queries -/

structure OrderByItem (Q : Type) where
  expr : Expr Q
  asc : Bool
  nullsFirst : Option Bool

inductive SelectItem (Q : Type) where
  | wildcard
  | qualifiedWildcard (name : ObjectName)
  | expr (expr : Expr Q) (aliasName : Option String)

inductive TableFactor (Q : Type) where
  | table (name : ObjectName) (aliasName : Option String)
  | derived (subquery : Q) (aliasName : String)

inductive JoinConstraint (Q : Type) where
  | on (expr : Expr Q)
  | using (columns : List String)
  | none

structure Join (Q : Type) where
  joinType : JoinType
  relation : TableFactor Q
  constraint : JoinConstraint Q

structure TableWithJoins (Q : Type) where
  relation : TableFactor Q
  joins : List (Join Q)

structure Select (Q : Type) where
  distinct : Bool
  projection : List (SelectItem Q)
  sources : List (TableWithJoins Q)
  selection : Option (Expr Q)
  groupBy : List (Expr Q)
  having : Option (Expr Q)

structure Cte (Q : Type) where
  name : String
  columns : List String
  query : Q

inductive SetOp where
  | union
  | intersect
  | except

mutual

inductive Query (Q : Type) where
  | mk (ctes : List (Cte Q)) (body : SetExpr Q) (orderBy : List (OrderByItem Q)) (limit offset : Option (Expr Q))

inductive SetExpr (Q : Type) where
  | select (select : Select Q)
  | query (query : Query Q)
  | setOp (op : SetOp) (all : Bool) (left right : SetExpr Q)

end

/-! ## Row-changing statements -/

structure Assignment (Q : Type) where
  column : String
  value : Expr Q

inductive InsertConflictAction (Q : Type) where
  | nothing
  | update (assignments : List (Assignment Q)) (selection : Option (Expr Q))

/-- An empty target means whichever unique key the row collides with. -/
structure OnConflict (Q : Type) where
  target : List String
  action : InsertConflictAction Q

/-- SQLite's `INSERT OR IGNORE` and `INSERT OR REPLACE`. -/
inductive SqliteConflictPrefix where
  | ignore
  | replace
deriving DecidableEq

/-- The clause that comes closest to the words, given the columns the statement lists. -/
def SqliteConflictPrefix.intoOnConflict {Q : Type} (resolution : SqliteConflictPrefix) (columns : List String) :
    OnConflict Q where
  target := []
  action :=
    match resolution with
    | .ignore => .nothing
    | .replace => .update (columns.map fun column => ⟨column, .column ⟨["excluded", column]⟩⟩) none

inductive InsertSource (Q : Type) where
  | values (rows : List (List (Expr Q)))
  | query (query : Q)

structure Insert (Q : Type) where
  table : ObjectName
  columns : List String
  source : InsertSource Q
  returning : List (SelectItem Q)
  onConflict : Option (OnConflict Q)

structure Update (Q : Type) where
  table : ObjectName
  aliasName : Option String
  assignments : List (Assignment Q)
  selection : Option (Expr Q)
  returning : List (SelectItem Q)

structure Delete (Q : Type) where
  table : ObjectName
  aliasName : Option String
  selection : Option (Expr Q)
  returning : List (SelectItem Q)

structure Call (Q : Type) where
  name : ObjectName
  args : List (Expr Q)

inductive Statement (Q : Type) where
  | createTable (create : CreateTable)
  | alterTable (alter : AlterTable)
  | dropTable (drop : DropTable)
  | createIndex (create : CreateIndex)
  | dropIndex (drop : DropIndex)
  | query (query : Query Q)
  | insert (insert : Insert Q)
  | update (update : Update Q)
  | delete (delete : Delete Q)
  | begin
  | commit
  | rollback
  | call (call : Call Q)
  | procedural

end Ferrite.Ast
