import Ferrite.Plan.Expression

/-!
# Scopes

`ferrite-planner/src/scope.rs`: the columns of one row, each with the relation names
it answers to. A reference resolves when exactly one column answers.
-/

namespace Ferrite.Plan

/-- A column with its table's name and alias. -/
structure ScopeColumn where
  qualifiers : List String
  column : ColumnDef
deriving DecidableEq

/-- Whether a reference may mean this column. -/
def ScopeColumn.answers (entry : ScopeColumn) (reference : ColumnRef) : Bool := entry.column.name == reference.name &&
    match reference.qualifier with
    | none => true
    | some qualifier => entry.qualifiers.contains qualifier

/-- The columns of one row, in order. -/
structure Scope where
  columns : List ScopeColumn
deriving DecidableEq

namespace Scope

/-- Nothing may be referenced here. -/
def empty : Scope := ⟨[]⟩

/-- One relation, reachable through any of the qualifiers. -/
def forRelation (schema : Schema) (qualifiers : List String) : Scope :=
  ⟨schema.columns.map (ScopeColumn.mk qualifiers)⟩

/-- The output of a projection or an aggregate. -/
def anonymous (schema : Schema) : Scope := forRelation schema []

/-- The two sides of a join, left columns first. -/
def concat (left right : Scope) : Scope := ⟨left.columns ++ right.columns⟩

/-- What the null-extended side of an outer join makes of a column. -/
def makeNullable (entry : ScopeColumn) : ScopeColumn :=
  { entry with column := { entry.column with nullable := true } }

def nullable (scope : Scope) : Scope := ⟨scope.columns.map makeNullable⟩

def len (scope : Scope) : Nat := scope.columns.length

/-- The positions, from `start` on, whose columns answer to a reference. -/
def candidatesFrom (reference : ColumnRef) : Nat → List ScopeColumn → List Nat
  | _, [] => []
  | start, entry :: rest =>
    if entry.answers reference then start :: candidatesFrom reference (start + 1) rest
    else candidatesFrom reference (start + 1) rest

/-- More than one candidate makes a reference ambiguous, none makes it unknown. -/
def candidates (scope : Scope) (reference : ColumnRef) : List Nat := candidatesFrom reference 0 scope.columns

def canResolve (scope : Scope) (reference : ColumnRef) : Bool := (scope.candidates reference).length == 1

def resolve (scope : Scope) (reference : ColumnRef) : Except FerriteError Nat :=
  match scope.candidates reference with
  | [position] => .ok position
  | [] => .error (.columnNotFound reference.display)
  | _ => .error (.plan s!"column reference {reference.display} is ambiguous")

def column (scope : Scope) (position : Nat) : Except FerriteError ColumnDef :=
  match scope.columns[position]? with
  | some entry => .ok entry.column
  | none => .error (.plan s!"column {position} out of range")

/-- The positions reachable through a qualifier, what `t.*` expands to. -/
def positionsFor (scope : Scope) (qualifier : String) : List Nat := (List.range scope.len).filter fun position =>
    (scope.columns[position]?).any fun entry => entry.qualifiers.contains qualifier

def schema (scope : Scope) : Schema := ⟨scope.columns.map ScopeColumn.column⟩

/-! ## Lengths -/

@[simp] theorem len_forRelation (schema : Schema) (qualifiers : List String) :
    (forRelation schema qualifiers).len = schema.columns.length := by
  simp [len, forRelation]

@[simp] theorem len_concat (left right : Scope) : (concat left right).len = left.len + right.len := by
  simp [len, concat]

@[simp] theorem len_nullable (scope : Scope) : scope.nullable.len = scope.len := by simp [len, nullable]

@[simp] theorem length_schema (scope : Scope) : scope.schema.columns.length = scope.len := by simp [len, schema]

end Scope

end Ferrite.Plan
