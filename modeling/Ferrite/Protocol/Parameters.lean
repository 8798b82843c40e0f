import Ferrite.Logical.Fallible
import Ferrite.Protocol.Session

/-!
# Bound parameters

`ferrite-protocol/src/types.rs` as far as `Bind` uses it: the types a `Parse` settles
for the parameters of a statement, and the decoding of what a client sends for them,
as text or in binary. Floats and timestamps are read as in the rest of the engine.
-/

namespace Ferrite.Protocol

open Sql Logical

/-- What the handler tells about a statement before it runs. A parameter without a
type is one it could not infer; a statement without fields returns no rows. -/
structure StatementDescription where
  parameterTypes : List (Option DataType)
  fields : Option (List FieldDescription)

/-- The type a PostgreSQL OID stands for; `0` leaves it to the server. -/
def typeFromOid : Int → Option DataType
  | 16 => some .boolean
  | 23 => some .int4
  | 20 => some .int8
  | 701 => some .float8
  | 25 | 1042 | 1043 => some .text
  | 1184 | 1114 => some .timestamp
  | 2950 => some .uuid
  | 114 | 3802 => some .json
  | _ => none

/-- The type of one parameter: what the client declared, else what the engine
inferred, else text. -/
def parameterType (declared : List Int) (description : StatementDescription) (position : Nat) : DataType :=
  match typeFromOid (declared[position]?.getD 0) with
  | some dataType => dataType
  | none => (description.parameterTypes[position]?.bind id).getD .text

def mergeParameterTypes (declared : List Int) (description : StatementDescription) : List DataType :=
  (List.range (max declared.length description.parameterTypes.length)).map (parameterType declared description)

/-! ## Decoding -/

/-- The string bytes encode, if they are UTF-8. -/
def fromUtf8 (raw : List UInt8) : Except ProtocolError String :=
  match String.fromUTF8? ⟨raw.toArray⟩ with
  | some text => .ok text
  | none => .error (.malformed "parameter is not valid UTF-8")

/-- A literal that could be read, or the complaint about it. -/
def readLiteral (what text : String) (value : Option Value) : Except ProtocolError Value :=
  match value with
  | some value => .ok value
  | none => .error (.malformed s!"invalid {what} literal {text.quote}")

def readBoolean (text : String) : Option Value :=
  if ["t", "true", "TRUE", "1", "yes", "on"].contains text then some (.boolean true)
  else if ["f", "false", "FALSE", "0", "no", "off"].contains text then some (.boolean false)
  else none

/-- An integer of `bits` bits. -/
def readSized (bits : Nat) (text : String) : Option Int := do
  let value ← Numeral.readInt text.toList
  if -(2 ^ (bits - 1) : Int) ≤ value ∧ value < (2 ^ (bits - 1) : Int) then some value else none

/-- The dashes may stand anywhere. -/
def parseUuid (text : String) : Option (BitVec 128) :=
  let digits := text.toList.filter (· != '-')
  if digits.length = 32 then (Numeral.readDigits 16 0 digits).map (BitVec.ofNat 128) else none

def decodeText (formats : TextFormats) (dataType : DataType) (raw : List UInt8) : Except ProtocolError Value := do
  let text ← fromUtf8 raw
  match dataType with
  | .boolean => readLiteral "boolean" text (readBoolean text)
  | .int4 => readLiteral "int4" text ((readSized 32 text).map fun value => .int4 (Int32.ofInt value))
  | .int8 => readLiteral "int8" text ((readSized 64 text).map fun value => .int8 (Int64.ofInt value))
  | .float8 => readLiteral "float8" text ((formats.readFloat text).map Value.float8)
  | .text => .ok (.text text)
  | .timestamp => readLiteral "timestamp" text ((formats.parseTimestamp text).toOption.map Value.timestamp)
  | .uuid => readLiteral "uuid" text ((parseUuid text).map Value.uuid)
  | .json => .ok (.json text)

def bigEndian (raw : List UInt8) : Nat := raw.foldl (fun value byte => value * 256 + byte.toNat) 0

/-- A value of a fixed width. -/
def sized (dataType : DataType) (width : Nat) (raw : List UInt8) (value : Value) : Except ProtocolError Value :=
  if raw.length = width then .ok value
  else
    .error (.malformed s!"binary {debugType dataType} parameter is {raw.length} bytes, expected {width}")

/-- Microseconds between the Unix epoch and PostgreSQL's. -/
def pgEpochOffset : Int := 946684800000000

def saturatingAdd (value : Int64) (offset : Int) : Int64 :=
  Int64.ofInt (max (-(2 ^ 63 : Int)) (min (2 ^ 63 - 1) (value.toInt + offset)))

def decodeBinary (dataType : DataType) (raw : List UInt8) : Except ProtocolError Value :=
  match dataType with
  | .boolean => sized .boolean 1 raw (.boolean (raw != [0]))
  | .int4 => sized .int4 4 raw (.int4 (Int32.ofNat (bigEndian raw)))
  | .int8 => sized .int8 8 raw (.int8 (Int64.ofNat (bigEndian raw)))
  | .float8 => sized .float8 8 raw (.float8 (UInt64.ofNat (bigEndian raw)))
  | .timestamp => sized .timestamp 8 raw (.timestamp (saturatingAdd (Int64.ofNat (bigEndian raw)) pgEpochOffset))
  | .uuid => sized .uuid 16 raw (.uuid (BitVec.ofNat 128 (bigEndian raw)))
  | .text => Value.text <$> fromUtf8 raw
  | .json => Value.json <$> fromUtf8 raw

/-- Without a payload the parameter is `NULL`. -/
def decodeValue (formats : TextFormats) (dataType : DataType) (format : Format) :
    Option (List UInt8) → Except ProtocolError Value
  | none => .ok .null
  | some raw =>
    match format with
    | .text => decodeText formats dataType raw
    | .binary => decodeBinary dataType raw

/-- The parameters of a `Bind`; one more than the statement has is read as text. -/
def decodeParams (formats : TextFormats) (types : List DataType) (codes : List Format)
    (raw : List (Option (List UInt8))) : Except ProtocolError (List Value) := do
  let codes ← resolveFormats codes raw.length
  raw.zipIdx.mapM fun param =>
    decodeValue formats ((types[param.2]?).getD .text) ((codes[param.2]?).getD .text) param.1

/-! ## Types of decoded values -/

/-- Parameters of the given types, each a value of its type or `NULL`. -/
def OfTypes (types : List DataType) (params : List Value) : Prop :=
  ∀ (position : Nat) (value : Value) (dataType : DataType), params[position]? = some value →
    value.dataType = some dataType →
    dataType = (types[position]?).getD .text

variable {value : Value} {formats : TextFormats} {dataType : DataType} {raw : List UInt8}

theorem readLiteral_eq_ok {what text : String} {read : Option Value} :
    readLiteral what text read = .ok value ↔ read = some value := by
  cases read <;> simp [readLiteral]

private theorem dataType_readBoolean {text : String} (read : readBoolean text = some value) :
    value.dataType = some .boolean := by
  rw [readBoolean] at read
  split at read
  · cases read
    rfl
  · split at read
    · cases read
      rfl
    · cases read

/-- A payload decodes to a value of the type it was decoded for. -/
theorem dataType_decodeText (decoded : decodeText formats dataType raw = .ok value) :
    value.dataType = some dataType := by
  obtain ⟨text, _, decoded⟩ := bind_eq_ok.mp decoded
  cases dataType with
  | boolean => exact dataType_readBoolean (readLiteral_eq_ok.mp decoded)
  | int4 =>
    obtain ⟨number, _, rfl⟩ := Option.map_eq_some_iff.mp (readLiteral_eq_ok.mp decoded)
    rfl
  | int8 =>
    obtain ⟨number, _, rfl⟩ := Option.map_eq_some_iff.mp (readLiteral_eq_ok.mp decoded)
    rfl
  | float8 =>
    obtain ⟨bits, _, rfl⟩ := Option.map_eq_some_iff.mp (readLiteral_eq_ok.mp decoded)
    rfl
  | text =>
    cases decoded
    rfl
  | timestamp =>
    obtain ⟨micros, _, rfl⟩ := Option.map_eq_some_iff.mp (readLiteral_eq_ok.mp decoded)
    rfl
  | uuid =>
    obtain ⟨bits, _, rfl⟩ := Option.map_eq_some_iff.mp (readLiteral_eq_ok.mp decoded)
    rfl
  | json =>
    cases decoded
    rfl

private theorem sized_eq_ok {width : Nat} {given : Value} (decoded : sized dataType width raw given = .ok value) :
    given = value := by
  rw [sized] at decoded
  split at decoded
  · exact Except.ok.inj decoded
  · cases decoded

private theorem dataType_decodeBinary (decoded : decodeBinary dataType raw = .ok value) :
    value.dataType = some dataType := by
  cases dataType with
  | text =>
    obtain ⟨text, _, rfl⟩ := map_eq_ok.mp decoded
    rfl
  | json =>
    obtain ⟨text, _, rfl⟩ := map_eq_ok.mp decoded
    rfl
  | _ =>
    rw [← sized_eq_ok decoded]
    rfl

private theorem dataType_decodeValue {format : Format} {raw : Option (List UInt8)}
    (decoded : decodeValue formats dataType format raw = .ok value) :
    ∀ actual, value.dataType = some actual → actual = dataType := by
  intro actual typed
  cases raw with
  | none =>
    cases decoded
    cases typed
  | some raw =>
    have declared : value.dataType = some dataType := by
      cases format with
      | text => exact dataType_decodeText decoded
      | binary => exact dataType_decodeBinary decoded
    rw [declared] at typed
    exact (Option.some.inj typed).symm

/-- Decoded parameters have the types of the statement they are decoded for. -/
theorem ofTypes_decodeParams {types : List DataType} {codes : List Format} {raw : List (Option (List UInt8))}
    {params : List Value} (decoded : decodeParams formats types codes raw = .ok params) : OfTypes types params := by
  obtain ⟨codes, _, decoded⟩ := bind_eq_ok.mp decoded
  intro position value dataType given typed
  have pairs := mapM_eq_ok.mp decoded
  obtain ⟨inside, rfl⟩ := List.getElem?_eq_some_iff.mp given
  have bound : position < raw.zipIdx.length := pairs.length_eq ▸ inside
  have here := pairs.get bound inside
  have at_position : (raw.zipIdx.get ⟨position, bound⟩).2 = position := by simp
  rw [at_position] at here
  exact dataType_decodeValue here dataType typed

end Ferrite.Protocol
