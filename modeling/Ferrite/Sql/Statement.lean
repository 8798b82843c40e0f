import Ferrite.Sql.Definition

/-!
# Statements

The statements of `ferrite-sql/src/ast.rs` as the planner reads them. Expressions are
taken by what the planner makes of them: lowering, coercing and binding an
expression against a list of columns gives a plan error or a function of a row. The
operators of a query above its table scans are taken together, as the function from
the scanned rows to the result.
-/

namespace Ferrite.Sql

/-- A bound expression, as `eval` reads it. -/
abbrev Scalar := Row → Except FerriteError Value

/-- A bound predicate, as `eval_predicate` reads it. -/
abbrev Predicate := Row → Except FerriteError Bool

/-- An expression, bound against the columns in scope and coerced to a type. -/
abbrev Expr := Schema → DataType → Except FerriteError Scalar

/-- A condition, bound against the columns in scope. -/
abbrev Condition := Schema → Except FerriteError Predicate

structure Assignment where
  column : String
  value : Expr

inductive InsertConflictAction where
  | nothing
  | update (assignments : List Assignment) (selection : Option Condition)

/-- An empty target means the table's first unique key. -/
structure OnConflict where
  target : List String
  action : InsertConflictAction

structure Insert where
  table : ObjectName
  columns : List String
  values : List (List Expr)
  onConflict : Option OnConflict

structure Update where
  table : ObjectName
  assignments : List Assignment
  selection : Option Condition

structure Delete where
  table : ObjectName
  selection : Option Condition

/-- What a query is once its tables are known: the filter of each scan, the columns
of the result, and what becomes of the rows the scans deliver. -/
structure QueryShape where
  filters : List (Option Predicate)
  output : Schema
  rows : List (List Row) → Except FerriteError (List Row)

structure Query where
  tables : List ObjectName
  shape : List Schema → Except FerriteError QueryShape

structure Call where
  name : String
  args : List Expr

inductive Statement where
  | createTable (create : CreateTable)
  | alterTable (alter : AlterTable)
  | dropTable (drop : DropTable)
  | createIndex (create : CreateIndex)
  | dropIndex (drop : DropIndex)
  | query (query : Query)
  | insert (insert : Insert)
  | update (update : Update)
  | delete (delete : Delete)
  | begin
  | commit
  | rollback
  | call (call : Call)
  | procedural

end Ferrite.Sql
