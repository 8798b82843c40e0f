import Ferrite.Common.Schema
import Ferrite.Logical.Numeral

/-!
# Table definitions

The part of the statement tree of `ferrite-sql/src/ast.rs` that defines tables and
indexes, its projection onto schemas, and the planner's check of defaults
(`typecheck_defaults`). How floats are printed, timestamps are read and which characters
are printable is taken as given: all that is used is that a printed number reads back as
itself.
-/

namespace Ferrite.Sql

open Logical

/-- A name, part by part. -/
structure ObjectName where
  parts : List String
deriving DecidableEq

namespace ObjectName

/-- The object's own name. -/
def base (name : ObjectName) : String := name.parts.getLast?.getD ""

/-- What stands before the object's own name. -/
def qualifier (name : ObjectName) : Option String :=
  if 2 ≤ name.parts.length then name.parts[name.parts.length - 2]? else none

/-- Schema and name, unqualified names in the default schema. -/
def split (name : ObjectName) (defaultSchema : String) : String × String :=
  (name.qualifier.getD defaultSchema, name.base)

end ObjectName

/-- A literal. The grammar has no way to write a NaN. -/
inductive Literal where
  | null
  | boolean (value : Bool)
  | int (value : Int64)
  | float (bits : UInt64) (number : Float8.isNaN bits = false)
  | string (value : String)
deriving DecidableEq

/-- Integer literals take the narrowest type that fits. -/
def intLiteral (value : Int64) : Value :=
  if -2 ^ 31 ≤ value.toInt ∧ value.toInt < 2 ^ 31 then .int4 (.ofInt value.toInt) else .int8 value

def literalValue : Literal → Value
  | .null => .null
  | .boolean value => .boolean value
  | .int value => intLiteral value
  | .float bits _ => .float8 bits
  | .string value => .text value

/-- The expression of a `DEFAULT` clause, as far as Ferrite tells them apart. -/
inductive DefaultExpr where
  | literal (literal : Literal)
  | plus (literal : Literal)
  | minus (literal : Literal)
  | currentTimestamp
  | other
deriving DecidableEq

/-- Flip the sign bit of a double. -/
def negateFloat (bits : UInt64) : UInt64 := bits ^^^ 0x8000000000000000

/-- Project a `DEFAULT` expression onto the small set Ferrite stores. -/
def columnDefault (column : String) : DefaultExpr → Except FerriteError ColumnDefault
  | .literal literal => .ok (.constant (literalValue literal))
  | .plus literal => .ok (.constant (literalValue literal))
  | .minus (.int value) =>
    if value.toInt = -2 ^ 63 then refused else .ok (.constant (intLiteral (-value)))
  | .minus (.float bits _) => .ok (.constant (.float8 (negateFloat bits)))
  | .minus _ => refused
  | .currentTimestamp => .ok .currentTimestamp
  | .other => refused
where
  refused : Except FerriteError ColumnDefault := .error (.invalidDefinition
      s!"the DEFAULT of column \x60{column}\x60 is not a literal or CURRENT_TIMESTAMP")

inductive ColumnConstraint where
  | notNull
  | null
  | primaryKey
  | unique
  | default (expr : DefaultExpr)
  | collate (name : String)
deriving DecidableEq

inductive TableConstraint where
  | primaryKey (columns : List String)
  | unique (columns : List String)
deriving DecidableEq

structure ColumnSpec where
  name : String
  dataType : DataType
  constraints : List ColumnConstraint
deriving DecidableEq

/-- The first `DEFAULT` clause of a constraint list. -/
def defaultClause : List ColumnConstraint → Option DefaultExpr
  | [] => none
  | .default expr :: _ => some expr
  | _ :: rest => defaultClause rest

/-- `primaryKey` says whether a table-level primary key names the column. -/
def ColumnSpec.toColumnDef (spec : ColumnSpec) (primaryKey : Bool) : Except FerriteError ColumnDef := do
  let nullable := !primaryKey && !spec.constraints.any fun constraint =>
    constraint == .notNull || constraint == .primaryKey
  let default ← match defaultClause spec.constraints with
    | none => pure none
    | some expr => some <$> columnDefault spec.name expr
  pure { name := spec.name, dataType := spec.dataType, nullable := nullable, default := default }

structure CreateTable where
  ifNotExists : Bool
  name : ObjectName
  columns : List ColumnSpec
  constraints : List TableConstraint
deriving DecidableEq

namespace CreateTable

def primaryKeyColumns (create : CreateTable) : List String := create.constraints.flatMap fun constraint =>
    match constraint with
    | .primaryKey columns => columns
    | .unique _ => []

def toSchema (create : CreateTable) : Except FerriteError Schema := do
  let columns ← create.columns.mapM fun column =>
    column.toColumnDef (create.primaryKeyColumns.contains column.name)
  pure ⟨columns⟩

/-- `Vec::dedup`: drop a key equal to the one before it. -/
def dedup : List (List String) → List (List String)
  | [] => []
  | [key] => [key]
  | key :: next :: rest => if key = next then dedup (next :: rest) else key :: dedup (next :: rest)

/-- The columns that carry a constraint, as keys of one column each. -/
def keysWith (create : CreateTable) (constraint : ColumnConstraint) : List (List String) :=
  (create.columns.filter fun column => column.constraints.contains constraint).map fun column =>
    [column.name]

/-- Every set of columns the definition declares unique, primary keys first. -/
def uniqueKeys (create : CreateTable) : List (List String) := dedup ((create.constraints.filterMap fun constraint =>
        match constraint with
        | .primaryKey columns => some columns
        | .unique _ => none)
      ++ create.keysWith .primaryKey
      ++ (create.constraints.filterMap fun constraint =>
        match constraint with
        | .primaryKey _ => none
        | .unique columns => some columns)
      ++ create.keysWith .unique)

end CreateTable

/-- `ALTER TABLE [IF EXISTS] name ADD COLUMN [IF NOT EXISTS] column`. -/
structure AlterTable where
  ifExists : Bool
  name : ObjectName
  ifNotExists : Bool
  column : ColumnSpec
deriving DecidableEq

structure DropTable where
  ifExists : Bool
  names : List ObjectName
deriving DecidableEq

structure CreateIndex where
  ifNotExists : Bool
  unique : Bool
  name : String
  table : ObjectName
  columns : List String
deriving DecidableEq

structure DropIndex where
  ifExists : Bool
  name : String
deriving DecidableEq

/-! ## Values as text -/

/-- How floats are printed and read, timestamps read, and which characters `{:?}` shows as
they are in a text. -/
structure TextFormats where
  writeFloat : UInt64 → String
  readFloat : String → Option UInt64
  read_write : ∀ bits, Float8.isNaN bits = false → readFloat (writeFloat bits) = some bits
  parseTimestamp : String → Except FerriteError Int64
  printable : Char → Bool

/-- Floats by their bits, in decimal, and no timestamps. -/
def TextFormats.decimal : TextFormats where
  writeFloat bits := .ofList (Nat.toDigits 10 bits.toNat)
  readFloat text := (Numeral.readDigits 10 0 text.toList).map UInt64.ofNat
  read_write bits _ := by
    rw [String.toList_ofList, Numeral.readDigits_toDigits (by decide) (by decide)]
    simp
  parseTimestamp text := .error (.parse s!"invalid timestamp \x60{text}\x60")
  printable char := 32 ≤ char.toNat && char.toNat < 127

/-- The derived `Debug` of `DataType`. -/
def debugType : DataType → String
  | .boolean => "Boolean"
  | .int4 => "Int4"
  | .int8 => "Int8"
  | .float8 => "Float8"
  | .text => "Text"
  | .timestamp => "Timestamp"
  | .uuid => "Uuid"
  | .json => "Json"

def writeInteger (value : Int) : String := .ofList (Numeral.writeInt value)

def debugChar (printable : Char → Bool) : Char → List Char
  | '\x00' => ['\\', '0']
  | '\t' => ['\\', 't']
  | '\r' => ['\\', 'r']
  | '\n' => ['\\', 'n']
  | '\\' => ['\\', '\\']
  | '\x22' => ['\\', '\x22']
  | char =>
    if printable char then [char] else ['\\', 'u', '\x7b'] ++ (Nat.toDigits 16 char.toNat ++ ['\x7d'])

def debugText (formats : TextFormats) (text : String) : String :=
  .ofList ('\x22' :: (text.toList.flatMap (debugChar formats.printable) ++ ['\x22']))

def debugValue (formats : TextFormats) : Value → String
  | .null => "Null"
  | .boolean value => s!"Boolean({value})"
  | .int4 value => s!"Int4({writeInteger value.toInt})"
  | .int8 value => s!"Int8({writeInteger value.toInt})"
  | .float8 bits => s!"Float8({formats.writeFloat bits})"
  | .text value => s!"Text({debugText formats value})"
  | .timestamp value => s!"Timestamp({writeInteger value.toInt})"
  | .uuid value => s!"Uuid({writeInteger value.toNat})"
  | .json value => s!"Json({debugText formats value})"

/-- The hexadecimal digits of a UUID text; hyphens are skipped. -/
def uuidDigits : List Char → Option (List Nat)
  | [] => some []
  | '-' :: rest => uuidDigits rest
  | char :: rest =>
    match Numeral.digitValue char with
    | some digit => if digit < 16 then (uuidDigits rest).map (digit :: ·) else none
    | none => none

def parseUuid (formats : TextFormats) (text : String) : Except FerriteError (BitVec 128) :=
  match uuidDigits text.toList with
  | some digits =>
    if digits.length = 32 then .ok (.ofNat 128 (digits.foldl (fun bits digit => bits * 16 + digit) 0))
    else .error (.plan s!"{debugText formats text} is not a UUID")
  | none => .error (.plan s!"{debugText formats text} is not a UUID")

/-- `coerce` on a literal. -/
def coerceLiteral (formats : TextFormats) : Value → DataType → Except FerriteError Value
  | .text text, .uuid => .uuid <$> parseUuid formats text
  | .text text, .timestamp => .timestamp <$> formats.parseTimestamp text
  | .text text, .json => .ok (.json text)
  | .int4 value, .int8 => .ok (.int8 (.ofInt value.toInt))
  | .int4 value, .float8 => .ok (.float8 (Float8.ofInt value.toInt))
  | .int8 value, .float8 => .ok (.float8 (Float8.ofInt value.toInt))
  | value, _ => .ok value

/-- Give a default its column's type, or refuse it. -/
def typecheckDefault (formats : TextFormats) (column : ColumnDef) : Except FerriteError ColumnDef :=
  match column.default with
  | none => .ok column
  | some .currentTimestamp =>
    if column.dataType ≠ .timestamp then
      bad "is CURRENT_TIMESTAMP, which needs a TIMESTAMP column"
    else .ok column
  | some (.constant .null) =>
    if !column.nullable then bad "is NULL, but the column is NOT NULL" else .ok column
  | some (.constant value) => do
    let coerced ← coerceLiteral formats value column.dataType
    if coerced.dataType ≠ some column.dataType then
      bad s!"is {debugValue formats coerced}, which does not fit a {debugType column.dataType} column"
    else .ok { column with default := some (.constant coerced) }
where
  bad (what : String) : Except FerriteError ColumnDef :=
    .error (.invalidDefinition s!"the DEFAULT of column \x60{column.name}\x60 {what}")

def typecheckDefaults (formats : TextFormats) (schema : Schema) : Except FerriteError Schema :=
  Schema.mk <$> schema.columns.mapM (typecheckDefault formats)

end Ferrite.Sql
