import Ferrite.Sql.Ast

/-!
# Whole statement trees

What the parser returns: the statements of `ferrite-sql/src/ast.rs` with the queries
nested in them, the `DEFAULT` expressions of their columns and the bodies of their
procedures.
-/

namespace Ferrite.Ast

/-- A query nested in an expression or in a `FROM` list. -/
inductive Subquery where
  | mk (query : Query Subquery)

end Ferrite.Ast

namespace Ferrite.Tree

open Sql
open Ast (Subquery)

abbrev Expr := Ast.Expr Subquery
abbrev Query := Ast.Query Subquery
abbrev SetExpr := Ast.SetExpr Subquery
abbrev Select := Ast.Select Subquery
abbrev SelectItem := Ast.SelectItem Subquery
abbrev OrderByItem := Ast.OrderByItem Subquery
abbrev Cte := Ast.Cte Subquery
abbrev TableWithJoins := Ast.TableWithJoins Subquery
abbrev TableFactor := Ast.TableFactor Subquery
abbrev Join := Ast.Join Subquery
abbrev JoinConstraint := Ast.JoinConstraint Subquery
abbrev Assignment := Ast.Assignment Subquery
abbrev OnConflict := Ast.OnConflict Subquery
abbrev InsertSource := Ast.InsertSource Subquery

inductive ColumnConstraint where
  | notNull
  | null
  | primaryKey
  | unique
  | default (expr : Expr)
  | collate (name : String)

structure ColumnSpec where
  name : String
  dataType : DataType
  constraints : List ColumnConstraint

structure CreateTable where
  ifNotExists : Bool
  name : ObjectName
  columns : List ColumnSpec
  constraints : List TableConstraint

/-- `ADD COLUMN` is the one action there is. -/
structure AlterTable where
  ifExists : Bool
  name : ObjectName
  ifNotExists : Bool
  column : ColumnSpec

structure DropTable where
  ifExists : Bool
  names : List ObjectName
  cascade : Bool

structure ProcParam where
  name : String
  dataType : DataType

structure DropProcedure where
  ifExists : Bool
  name : ObjectName

inductive TriggerTiming where
  | before
  | after
deriving DecidableEq

inductive TriggerEvent where
  | insert
  | update
  | delete
deriving DecidableEq

structure CreateTrigger where
  name : String
  timing : TriggerTiming
  events : List TriggerEvent
  table : ObjectName
  forEachRow : Bool
  condition : Option Expr
  procedure : ObjectName
  args : List Expr

structure DropTrigger where
  ifExists : Bool
  name : String
  table : ObjectName

mutual

inductive Statement where
  | createTable (create : CreateTable)
  | alterTable (alter : AlterTable)
  | dropTable (drop : DropTable)
  | createIndex (create : CreateIndex)
  | dropIndex (drop : DropIndex)
  | query (query : Query)
  | insert (insert : Ast.Insert Subquery)
  | update (update : Ast.Update Subquery)
  | delete (delete : Ast.Delete Subquery)
  | begin
  | commit
  | rollback
  | createProcedure (orReplace : Bool) (name : ObjectName) (params : List ProcParam) (body : List ProcStatement)
  | dropProcedure (drop : DropProcedure)
  | call (call : Ast.Call Subquery)
  | createTrigger (create : CreateTrigger)
  | dropTrigger (drop : DropTrigger)

inductive ProcStatement where
  | sql (statement : Statement)
  | return (value : Option Expr)
  | raise (message : Expr)
  | if (branches : List (Expr × List ProcStatement)) (elseBranch : Option (List ProcStatement))

end

/-! ## The planner's view -/

def isCurrentTimestamp (name : String) : Bool := name == "now" || name == "current_timestamp"

/-- A `DEFAULT` expression, as far as Ferrite tells them apart. -/
def defaultExpr : Expr → DefaultExpr
  | .literal literal => .literal literal
  | .unaryOp .plus (.literal literal) => .plus literal
  | .unaryOp .minus (.literal literal) => .minus literal
  | .function ⟨name, .list [], _⟩ => if isCurrentTimestamp name then .currentTimestamp else .other
  | .column name =>
    if name.qualifier.isNone && isCurrentTimestamp name.base then .currentTimestamp else .other
  | _ => .other

def ColumnConstraint.project : ColumnConstraint → Sql.ColumnConstraint
  | .notNull => .notNull
  | .null => .null
  | .primaryKey => .primaryKey
  | .unique => .unique
  | .default expr => .default (defaultExpr expr)
  | .collate name => .collate name

def ColumnSpec.project (spec : ColumnSpec) : Sql.ColumnSpec :=
  ⟨spec.name, spec.dataType, spec.constraints.map ColumnConstraint.project⟩

/-- The statement as the planner reads it. Procedures and triggers are not planned. -/
def Statement.project : Statement → Ast.Statement Subquery
  | .createTable create =>
    .createTable ⟨create.ifNotExists, create.name, create.columns.map ColumnSpec.project, create.constraints⟩
  | .alterTable alter => .alterTable ⟨alter.ifExists, alter.name, alter.ifNotExists, alter.column.project⟩
  | .dropTable drop => .dropTable ⟨drop.ifExists, drop.names⟩
  | .createIndex create => .createIndex create
  | .dropIndex drop => .dropIndex drop
  | .query inner => .query inner
  | .insert inner => .insert inner
  | .update inner => .update inner
  | .delete inner => .delete inner
  | .begin => .begin
  | .commit => .commit
  | .rollback => .rollback
  | .call inner => .call inner
  | .createProcedure _ _ _ _ | .dropProcedure _ | .createTrigger _ | .dropTrigger _ => .procedural

end Ferrite.Tree
