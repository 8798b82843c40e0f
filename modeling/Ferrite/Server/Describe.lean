import Ferrite.Plan.Lowering
import Ferrite.Protocol.Parameters
import Ferrite.Sql.Parser
import Ferrite.Sql.Visit

/-!
# Describing a statement before it is bound

`describe_statement` of `ferrite-server/src/engine.rs` with the parameter inference of
`describe.rs`, and what a `Parse` message makes of the description. There are as many
parameters as the highest placeholder says, whether or not the statement has them all.
-/

namespace Ferrite.Server

open Plan (Planner)
open Protocol
open Sql (ObjectName)
open Ast (Subquery)
open Ferrite.Tree (Expr Statement)

variable {S P : Type}

/-! ## Parameter inference -/

/-- The number of the placeholder an expression is. -/
def placeholder : Expr → Option UInt32
  | .parameter number => some number
  | _ => none

/-- The highest placeholder is the number of parameters. -/
def count (statement : Statement) : Nat :=
  ((Tree.forEachExpr statement).filterMap placeholder).foldl (fun highest number => max highest number.toNat) 0

/-- Note the type of a parameter. Parameters are numbered from one. -/
def setType (types : List (Option DataType)) (number : UInt32) (dataType : DataType) : List (Option DataType) :=
  if number = 0 then types else types.set (number.toNat - 1) (some dataType)

/-- A placeholder takes the type of what it stands beside. -/
def noteType (dataType : DataType) (types : List (Option DataType)) : Expr → List (Option DataType)
  | .parameter number => setType types number dataType
  | _ => types

def columnType (schema : Schema) (name : String) : Option DataType := do
  let position ← schema.columnIndex name
  let column ← schema.columns[position]?
  pure column.dataType

/-- A column compared with something, in either order. -/
def fromComparison (schema : Schema) (types : List (Option DataType)) : Expr → Expr → List (Option DataType)
  | .column name, .parameter number | .parameter number, .column name =>
    match columnType schema name.base with
    | some dataType => setType types number dataType
    | none => types
  | _, _ => types

/-- A column against several bounds or items. -/
def fromItems (schema : Schema) (types : List (Option DataType)) (expr : Expr) (items : List Expr) :
    List (Option DataType) :=
  match expr with
  | .column name =>
    match columnType schema name.base with
    | some dataType => items.foldl (noteType dataType) types
    | none => types
  | _ => types

def fromPredicate (schema : Schema) : Expr → List (Option DataType) → List (Option DataType)
  | .binaryOp left op right, types =>
    if op = .and ∨ op = .or then fromPredicate schema right (fromPredicate schema left types)
    else fromComparison schema types left right
  | .unaryOp _ expr, types | .isNull expr _, types => fromPredicate schema expr types
  | .between expr _ low high, types => fromItems schema types expr [low, high]
  | .inList expr list _, types => fromItems schema types expr list
  | _, types => types

def fromSelection (schema : Schema) (selection : Option Expr) (types : List (Option DataType)) :
    List (Option DataType) :=
  match selection with
  | some predicate => fromPredicate schema predicate types
  | none => types

section

variable (planner : Planner Subquery S P)

def schemaOf (name : ObjectName) : Option Schema :=
  match planner.tableId (name.split Exec.defaultNamespace).1 (name.split Exec.defaultNamespace).2 with
  | .ok (some id) => (planner.tableSchema id).toOption
  | _ => none

/-- The columns a row of `VALUES` is written to. -/
def insertPositions (schema : Schema) (columns : List String) : List Nat :=
  if columns.isEmpty then List.range schema.columns.length else columns.filterMap schema.columnIndex

def fromAssignment (schema : Schema) (types : List (Option DataType)) (assignment : Tree.Assignment) :
    List (Option DataType) :=
  match columnType schema assignment.column with
  | some dataType => noteType dataType types assignment.value
  | none => types

/-- One value of a row, written to a column. -/
def fromValue (schema : Schema) (types : List (Option DataType)) (cell : Nat × Expr) : List (Option DataType) :=
  match schema.columns[cell.1]? with
  | some column => noteType column.dataType types cell.2
  | none => types

def fromRow (schema : Schema) (positions : List Nat) (types : List (Option DataType)) (row : List Expr) :
    List (Option DataType) :=
  (positions.zip row).foldl (fromValue schema) types

/-- The table whose columns type the placeholders of a statement. -/
def inferTable : Statement → Option ObjectName
  | .insert ⟨table, _, .values _, _, _⟩ => some table
  | .update ⟨table, _, _, _, _⟩ => some table
  | .delete ⟨table, _, _, _⟩ => some table
  | .query (.mk _ (.select ⟨_, _, ⟨.table name _, _⟩ :: _, _, _, _⟩) _ _ _) => some name
  | _ => none

/-- What the columns of that table say. -/
def inferWith (schema : Schema) (types : List (Option DataType)) : Statement → List (Option DataType)
  | .insert ⟨_, columns, .values rows, _, _⟩ => rows.foldl (fromRow schema (insertPositions schema columns)) types
  | .update ⟨_, _, assignments, selection, _⟩ =>
    fromSelection schema selection (assignments.foldl (fromAssignment schema) types)
  | .delete ⟨_, _, selection, _⟩ => fromSelection schema selection types
  | .query (.mk _ (.select ⟨_, _, _, selection, _, _⟩) _ _ _) => fromSelection schema selection types
  | _ => types

def infer (statement : Statement) (types : List (Option DataType)) : List (Option DataType) :=
  match (inferTable statement).bind (schemaOf planner) with
  | some schema => inferWith schema types statement
  | none => types

/-- One entry for each parameter; `none` where the type could not be inferred. -/
def parameterTypes (statement : Statement) : List (Option DataType) :=
  infer planner statement (List.replicate (count statement) none)

/-! ## Descriptions -/

def fieldsOf (schema : Schema) : List FieldDescription :=
  schema.columns.map fun column => ⟨column.name, column.dataType⟩

/-- The lists made on the way to a description. -/
structure Described where
  parameterTypes : List (Option DataType)
  standIns : List Value
  fields : Option (List FieldDescription)

variable [BEq Subquery] [BEq S] (alphabet : Alphabet)

/-- The columns a statement would produce, placeholders stood in for by `NULL`. -/
def describedFields (statement : Statement) (standIns : List Value) : Option (List FieldDescription) := do
  let plan ← ({ planner with params := standIns }.plan statement.project).toOption
  let schema ← plan.outputSchema
  pure (fieldsOf schema)

def describeLast (statement : Statement) : Described :=
  let types := parameterTypes planner statement
  let standIns := List.replicate types.length Value.null
  ⟨types, standIns, describedFields planner statement standIns⟩

/-- The last statement of a text is described; a text without one is not known. -/
def describeStatement (text : String) : Except FerriteError Described :=
  match parse alphabet text with
  | .error error => .error (.parse s!"{error.message} (at offset {error.offset})")
  | .ok statements =>
    match statements.getLast? with
    | none => .ok ⟨[], [], none⟩
    | some statement => .ok (describeLast planner statement)

def Described.description (described : Described) : StatementDescription :=
  ⟨described.parameterTypes, described.fields⟩

/-- What a `Parse` message makes: the description and the types its parameters are bound
with. -/
def prepare (text : String) (declared : List Int) : Except FerriteError (Described × List DataType) :=
  match describeStatement planner alphabet text with
  | .error error => .error error
  | .ok described => .ok (described, mergeParameterTypes declared described.description)

end

/-! ## How long the lists get -/

/-! Inference fills in types and never changes how many there are. -/

section

variable (schema : Schema)

private theorem length_setType (types : List (Option DataType)) (number : UInt32) (dataType : DataType) :
    (setType types number dataType).length = types.length := by
  rw [setType]
  split <;> simp

private theorem length_noteType (dataType : DataType) (types : List (Option DataType)) (expr : Expr) :
    (noteType dataType types expr).length = types.length := by
  rw [noteType.eq_def]
  split
  · exact length_setType _ _ _
  · rfl

/-- A fold of steps that keep the length keeps the length. -/
theorem length_foldl {α β : Type} {step : List α → β → List α}
    (keeps : ∀ types item, (step types item).length = types.length) (types : List α) (items : List β) :
    (items.foldl step types).length = types.length := by
  induction items generalizing types with
  | nil => rfl
  | cons item items ih => rw [List.foldl_cons, ih, keeps]

private theorem length_fromComparison (types : List (Option DataType)) (left right : Expr) :
    (fromComparison schema types left right).length = types.length := by
  rw [fromComparison.eq_def]
  split
  · split
    · exact length_setType _ _ _
    · rfl
  · split
    · exact length_setType _ _ _
    · rfl
  · rfl

private theorem length_fromItems (types : List (Option DataType)) (expr : Expr) (items : List Expr) :
    (fromItems schema types expr items).length = types.length := by
  rw [fromItems.eq_def]
  split
  · split
    · exact length_foldl (length_noteType _) _ _
    · rfl
  · rfl

private theorem length_fromPredicate (expr : Expr) (types : List (Option DataType)) :
    (fromPredicate schema expr types).length = types.length := by
  fun_induction fromPredicate schema expr types with
  | case1 left op right types isBoolean ihLeft ihRight => rw [ihRight, ihLeft]
  | case2 left op right types _ => exact length_fromComparison schema types left right
  | case3 op expr types ih => exact ih
  | case4 expr negated types ih => exact ih
  | case5 expr negated low high types => exact length_fromItems schema types expr _
  | case6 expr list negated types => exact length_fromItems schema types expr _
  | case7 => rfl

private theorem length_fromSelection (selection : Option Expr) (types : List (Option DataType)) :
    (fromSelection schema selection types).length = types.length := by
  cases selection with
  | none => rfl
  | some predicate => exact length_fromPredicate schema predicate types

private theorem length_fromAssignment (types : List (Option DataType)) (assignment : Tree.Assignment) :
    (fromAssignment schema types assignment).length = types.length := by
  rw [fromAssignment]
  split
  · exact length_noteType _ _ _
  · rfl

private theorem length_fromRow (positions : List Nat) (types : List (Option DataType)) (row : List Expr) :
    (fromRow schema positions types row).length = types.length := by
  refine length_foldl (fun types cell => ?_) types _
  rw [fromValue]
  split
  · exact length_noteType _ _ _
  · rfl

private theorem length_inferWith (types : List (Option DataType)) (statement : Statement) :
    (inferWith schema types statement).length = types.length := by
  rw [inferWith.eq_def]
  split
  · exact length_foldl (length_fromRow schema _) _ _
  · rw [length_fromSelection]
    exact length_foldl (length_fromAssignment schema) _ _
  · exact length_fromSelection schema _ _
  · exact length_fromSelection schema _ _
  · rfl

end

theorem length_parameterTypes (planner : Planner Subquery S P) (statement : Statement) :
    (parameterTypes planner statement).length = count statement := by
  rw [parameterTypes, infer]
  split
  · rw [length_inferWith, List.length_replicate]
  · exact List.length_replicate

/-- How many parameters a text is described to have: those of its last statement. -/
def describedCount (alphabet : Alphabet) (text : String) : Nat :=
  match parse alphabet text with
  | .ok statements => statements.getLast?.elim 0 count
  | .error _ => 0

/-- The lists made for a `Parse` message are as long as the described parameters are
many, or as the declared ones are. -/
theorem length_prepare [BEq Subquery] [BEq S] {planner : Planner Subquery S P} {alphabet : Alphabet} {text : String}
    {declared : List Int} {described : Described} {merged : List DataType}
    (prepared : prepare planner alphabet text declared = .ok (described, merged)) :
    described.parameterTypes.length = describedCount alphabet text ∧
      described.standIns.length = describedCount alphabet text ∧
      merged.length = max declared.length (describedCount alphabet text) := by
  have mergedLength : ∀ described : Described, (mergeParameterTypes declared described.description).length =
      max declared.length described.parameterTypes.length := fun described => by
    rw [mergeParameterTypes, List.length_map, List.length_range]
    rfl
  rw [prepare, describeStatement] at prepared
  rw [describedCount]
  split at prepared
  · cases prepared
  · rename_i answer
    split at answer
    · cases answer
    · rename_i parsed
      rw [parsed]
      split at answer
      · rename_i last
        cases answer
        cases prepared
        simp [last, mergedLength]
      · rename_i statement last
        cases answer
        cases prepared
        simp [last, mergedLength, describeLast, length_parameterTypes]

end Ferrite.Server
