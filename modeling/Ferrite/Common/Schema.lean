import Mathlib.Algebra.Ring.Nat
import Ferrite.Common.Value
import Mathlib.Data.List.Forall2
import Mathlib.Data.Nat.Log

/-!
# Schemas and index definitions

The part of `ferrite-common` the catalog, the planner and the executor share:
column definitions with their defaults, column lists, and indexes as the catalog
knows them. Schemas are compared by Rust's derived `PartialEq`, so a constant
default is compared as a value, not by its representation.
-/

namespace Ferrite

/-- What a column falls back to when a write does not supply a value. -/
inductive ColumnDefault where
  | constant (value : Value)
  | currentTimestamp
deriving DecidableEq

namespace ColumnDefault

/-- The value to fill into rows written before the column existed, if there is one. -/
def constant? : ColumnDefault → Option Value
  | .constant value => some value
  | .currentTimestamp => none

def eq : ColumnDefault → ColumnDefault → Bool
  | .constant left, .constant right => left.eq right
  | .currentTimestamp, .currentTimestamp => true
  | _, _ => false

end ColumnDefault

/-- A column; without a default it falls back to `NULL`. -/
structure ColumnDef where
  name : String
  dataType : DataType
  nullable : Bool
  default : Option ColumnDefault
deriving DecidableEq

namespace ColumnDef

def constantDefault (column : ColumnDef) : Option Value := column.default.bind ColumnDefault.constant?

def eq (left right : ColumnDef) : Bool :=
  left.name == right.name && left.dataType == right.dataType && left.nullable == right.nullable
    && match left.default, right.default with
      | none, none => true
      | some leftDefault, some rightDefault => leftDefault.eq rightDefault
      | _, _ => false

end ColumnDef

/-- A column list. -/
structure Schema where
  columns : List ColumnDef
deriving DecidableEq

namespace Schema

/-- The position of the first column of that name. -/
def columnIndex (schema : Schema) (name : String) : Option Nat :=
  schema.columns.findIdx? fun column => column.name == name

/-- The positions of all the named columns, unless one is missing. -/
def columnIndexes (schema : Schema) (names : List String) : Option (List Nat) := names.mapM schema.columnIndex

/-- Column by column, in the same number of columns. -/
def eq (left right : Schema) : Bool :=
  left.columns.length == right.columns.length && (left.columns.zip right.columns).all fun pair => pair.1.eq pair.2

end Schema

/-- A value of a type, or `NULL` where that is allowed. -/
def Fits (dataType : DataType) (nullable : Bool) (value : Value) : Prop :=
  (value = .null ∧ nullable = true) ∨ value.dataType = some dataType

/-- A row of a schema: one fitting value per column. -/
def Conforms (schema : Schema) (row : Row) : Prop :=
  List.Forall₂ (fun column => Fits column.dataType column.nullable) schema.columns row.values

theorem Conforms.length {schema : Schema} {row : Row} (conforms : Conforms schema row) :
    row.values.length = schema.columns.length :=
  (List.Forall₂.length_eq conforms).symm

/-- Indexes are allocated from the same id space as tables. -/
abbrev IndexId := TableId

/-- An index as the catalog knows it, its columns in key order. -/
structure IndexDef where
  id : IndexId
  name : String
  table : TableId
  columns : List String
  unique : Bool
deriving DecidableEq

namespace Float8

/-- The magnitude bits of the double nearest to a positive integer, ties to even. A
carry out of the mantissa lands in the exponent, as it should. -/
def ofMagnitude (value : Nat) : Nat :=
  let exponent := Nat.log2 value
  let mantissa :=
    if exponent ≤ 52 then value * 2 ^ (52 - exponent)
    else
      let unit := 2 ^ (exponent - 52)
      let quotient := value / unit
      let remainder := value % unit
      if unit < 2 * remainder || (2 * remainder == unit && quotient % 2 == 1) then quotient + 1
      else quotient
  (exponent + 1023) * 2 ^ 52 + (mantissa - 2 ^ 52)

/-- `as f64` on an integer. -/
def ofInt (value : Int) : UInt64 :=
  if value = 0 then 0
  else if 0 < value then .ofNat (ofMagnitude value.natAbs)
  else .ofNat (2 ^ 63 + ofMagnitude value.natAbs)

end Float8

end Ferrite
