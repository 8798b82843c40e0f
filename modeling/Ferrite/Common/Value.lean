import Mathlib.Data.List.Basic

/-!
# Values, rows and unique keys

The part of `ferrite-common` the storage engine works on. A `Value` is one SQL
scalar; floats are held by their bit pattern, and `Float8.eq` is the IEEE
comparison that Rust's derived `PartialEq` uses. Equality of values therefore
differs from equality of representations in exactly two places: a NaN equals
nothing, and the two zeros equal each other.
-/

namespace Ferrite

/-- Transaction ids are `u64` and never wrap; `0` stands for "none". -/
abbrev TxnId := Nat

/-- Row ids are handed out by a per-table counter. -/
abbrev RowId := Nat

/-- Table ids are chosen by the catalog layer above storage. -/
abbrev TableId := Nat

namespace Float8

/-- The magnitude bits of an IEEE double, without its sign. -/
def magnitude (bits : UInt64) : UInt64 := bits &&& 0x7FFFFFFFFFFFFFFF

/-- A double is a NaN when its magnitude lies above infinity. -/
def isNaN (bits : UInt64) : Bool := decide (0x7FF0000000000000 < magnitude bits)

/-- Both zeros have magnitude zero. -/
def isZero (bits : UInt64) : Bool := magnitude bits == 0

/-- `f64::eq`, on bit patterns. -/
def eq (left right : UInt64) : Bool := !isNaN left && !isNaN right && (left == right || (isZero left && isZero right))

end Float8

/-- Scalar SQL types. -/
inductive DataType where
  | boolean
  | int4
  | int8
  | float8
  | text
  | timestamp
  | uuid
  | json
deriving DecidableEq

/-- A runtime value. -/
inductive Value where
  | null
  | boolean (value : Bool)
  | int4 (value : Int32)
  | int8 (value : Int64)
  | float8 (bits : UInt64)
  | text (value : String)
  | timestamp (value : Int64)
  | uuid (value : BitVec 128)
  | json (value : String)
deriving DecidableEq

namespace Value

/-- The type of a value; `NULL` has none. -/
def dataType : Value → Option DataType
  | .null => none
  | .boolean _ => some .boolean
  | .int4 _ => some .int4
  | .int8 _ => some .int8
  | .float8 _ => some .float8
  | .text _ => some .text
  | .timestamp _ => some .timestamp
  | .uuid _ => some .uuid
  | .json _ => some .json

/-- Whether the value is SQL `NULL`. -/
def isNull : Value → Bool
  | .null => true
  | _ => false

/-- The derived `PartialEq` of `Value`: variant by variant, floats by IEEE equality. -/
def eq : Value → Value → Bool
  | .null, .null => true
  | .boolean left, .boolean right => left == right
  | .int4 left, .int4 right => left == right
  | .int8 left, .int8 right => left == right
  | .float8 left, .float8 right => Float8.eq left right
  | .text left, .text right => left == right
  | .timestamp left, .timestamp right => left == right
  | .uuid left, .uuid right => left == right
  | .json left, .json right => left == right
  | _, _ => false

end Value

/-- `Vec<Value>` equality: same length and equal in every position. -/
def keyEq : List Value → List Value → Bool
  | [], [] => true
  | left :: lefts, right :: rights => left.eq right && keyEq lefts rights
  | _, _ => false

private theorem Float8.eq_comm (left right : UInt64) : Float8.eq left right = Float8.eq right left := by
  have sameBits : (left == right) = (right == left) := BEq.comm
  rw [Float8.eq, Float8.eq, sameBits, Bool.and_comm (!Float8.isNaN left), Bool.and_comm (Float8.isZero left)]

private theorem Value.eq_comm (left right : Value) : left.eq right = right.eq left := by
  cases left <;> cases right <;> simp [Value.eq, Float8.eq_comm, BEq.comm]

theorem keyEq_comm (left right : List Value) : keyEq left right = keyEq right left := by
  induction left generalizing right with
  | nil => cases right <;> rfl
  | cons value rest ih =>
    cases right with
    | nil => rfl
    | cons other others => rw [keyEq, keyEq, Value.eq_comm, ih]

/-- A single row: positional values. -/
structure Row where
  values : List Value
deriving DecidableEq

/-- A uniqueness requirement: the values at `columns`, taken together, may appear
at most once. `name` only travels along for the error message. -/
structure UniqueKey where
  name : String
  columns : List Nat
deriving DecidableEq

/-- The values a row carries at `columns`, or `none` when one is null or missing. -/
def extractColumns (row : Row) : List Nat → Option (List Value)
  | [] => some []
  | position :: rest =>
    match row.values[position]? with
    | some value =>
      if value.isNull then none
      else (extractColumns row rest).map (value :: ·)
    | none => none

/-- The key values this row carries, or `none` when any of them is null or missing. -/
def UniqueKey.extract (key : UniqueKey) (row : Row) : Option (List Value) := extractColumns row key.columns

/-- The errors of the engine and of the layers above it. A unique violation keeps
the key's values; the source renders them into the message. -/
inductive FerriteError where
  | tableNotFound (name : String)
  | columnNotFound (name : String)
  | typeMismatch (expected actual : DataType)
  | rowNotFound
  | txnNotActive (txn : TxnId)
  | permissionDenied (message : String)
  | serializationFailure
  | storage (message : String)
  | parse (message : String)
  | plan (message : String)
  | exec (message : String)
  | protocol (message : String)
  | objectAlreadyExists (what : String)
  | uniqueViolation (constraint : String) (key : List Value)
  | timeout (message : String)
  | resourceLimit (message : String)
  | invalidDefinition (message : String)
deriving DecidableEq

def UniqueKey.violation (key : UniqueKey) (values : List Value) : FerriteError := .uniqueViolation key.name values

end Ferrite
