import Ferrite.Plan.Lowering
import Ferrite.Protocol.Handshake
import Ferrite.Protocol.Messages
import Ferrite.Protocol.Values

/-!
# Frames sent to a client

The writers of `ferrite-protocol/src/message.rs` for `RowDescription`, `DataRow`,
`ParameterDescription`, `CommandComplete` and `ErrorResponse`, with the lengths and counts cut
to 32 and 16 bits as `buf.rs` does, and what a client makes of them by the grammar of version 3 of
the protocol.
-/

namespace Ferrite.Protocol

open Logical Sql Reader Wire
open Storage.Codec (asBytes)

/-! ## Writing -/

structure FieldMeta where
  name : String
  tableOid : Int
  columnId : Int
  typeOid : Int
  typeSize : Int
  typeModifier : Int
  format : Format
deriving DecidableEq

/-- The content of a frame. An error is a list of fields, each with the byte that tells what it is. -/
inductive Frame where
  | rowDescription (fields : List FieldMeta)
  | dataRow (values : List (Option Octets))
  | parameterDescription (oids : List Int)
  | commandComplete (tag : String)
  | errorResponse (fields : List (Nat × String))
deriving DecidableEq

def encodeField (field : FieldMeta) : Octets :=
  cString field.name ++ (be32 field.tableOid ++ (be16 field.columnId ++ (be32 field.typeOid ++
    (be16 field.typeSize ++ (be32 field.typeModifier ++ be16 field.format.code)))))

def encodeErrorField (field : Nat × String) : Octets := toBe 1 field.1 ++ cString field.2

namespace Frame

def tag : Frame → Nat
  | .rowDescription _ => 84
  | .dataRow _ => 68
  | .parameterDescription _ => 116
  | .commandComplete _ => 67
  | .errorResponse _ => 69

def body : Frame → Octets
  | .rowDescription fields => be16 fields.length ++ fields.flatMap encodeField
  | .dataRow values => be16 values.length ++ values.flatMap encodeNullable
  | .parameterDescription oids => be16 oids.length ++ oids.flatMap be32
  | .commandComplete tag => cString tag
  | .errorResponse fields => fields.flatMap encodeErrorField ++ [0]

/-- The tag, the length with its own four bytes, and the body. -/
def write (frame : Frame) : Octets := toBe 1 frame.tag ++ (be32 (frame.body.length + 4) ++ frame.body)

end Frame

/-! ## The grammar -/

def readField : Wire FieldMeta := do
  let name ← cstr
  let tableOid ← i32
  let columnId ← i16
  let typeOid ← i32
  let typeSize ← i16
  let typeModifier ← i32
  let format ← Wire.format
  pure { name, tableOid, columnId, typeOid, typeSize, typeModifier, format }

/-- A field of an error, or the zero byte at the end. -/
def readErrorField : Wire (Option (Nat × String)) := do
  let code ← u8
  if code = 0 then pure none
  else do
    let text ← cstr
    pure (some (code, text))

/-- What a body with some tag contains. -/
def readContent (tag : Nat) : Wire Frame :=
  if tag = 84 then Frame.rowDescription <$> (count >>= times readField)
  else if tag = 68 then Frame.dataRow <$> (count >>= times nullableBytes)
  else if tag = 116 then Frame.parameterDescription <$> (count >>= times i32)
  else if tag = 67 then Frame.commandComplete <$> cstr
  else if tag = 69 then Frame.errorResponse <$> terminated readErrorField
  else malformed "unknown tag"

/-- A frame that is all there is: its length counts the body exactly, and the body is read to its
end. -/
def readFrame (input : Octets) : Except WireError Frame := do
  let (tag, afterTag) ← u8.run ⟨input⟩
  let (length, afterLength) ← i32.run afterTag
  if length < 4 then .error (.malformed "frame length below the minimum")
  else do
    let (body, afterBody) ← (takeBytes (length.toNat - 4)).run afterLength
    let _ ← finish.run afterBody
    let (frame, afterFrame) ← (readContent tag).run ⟨body⟩
    let _ ← finish.run afterFrame
    pure frame

/-! ## What can be read back -/

def FieldMeta.Valid (field : FieldMeta) : Prop :=
  NulFree field.name ∧ (-2 ^ 31 ≤ field.tableOid ∧ field.tableOid < 2 ^ 31) ∧
    (-2 ^ 15 ≤ field.columnId ∧ field.columnId < 2 ^ 15) ∧ (-2 ^ 31 ≤ field.typeOid ∧ field.typeOid < 2 ^ 31) ∧
    (-2 ^ 15 ≤ field.typeSize ∧ field.typeSize < 2 ^ 15) ∧ (-2 ^ 31 ≤ field.typeModifier ∧ field.typeModifier < 2 ^ 31)

/-- The counts and lengths are kept, and no zero byte ends a string too early. -/
def Frame.Content : Frame → Prop
  | .rowDescription fields => fields.length < 2 ^ 15 ∧ ∀ field ∈ fields, field.Valid
  | .dataRow values => values.length < 2 ^ 15 ∧ ∀ value ∈ values, ∀ bytes ∈ value, bytes.length < 2 ^ 31
  | .parameterDescription oids => oids.length < 2 ^ 15 ∧ ∀ oid ∈ oids, -2 ^ 31 ≤ oid ∧ oid < 2 ^ 31
  | .commandComplete tag => NulFree tag
  | .errorResponse fields => ∀ field ∈ fields, (0 < field.1 ∧ field.1 < 256) ∧ NulFree field.2

private theorem coded_readField : Coded readField encodeField FieldMeta.Valid where
  reads field isValid := by
    obtain ⟨name, tableOid, columnId, typeOid, typeSize, typeModifier⟩ := isValid
    exact (coded_cstr.reads name).bind ((coded_i32.reads tableOid).bind ((coded_i16.reads columnId).bind
      ((coded_i32.reads typeOid).bind ((coded_i16.reads typeSize).bind ((coded_i32.reads typeModifier).bind
        (coded_format.reads trivial).map)))))
  takes := by
    intro input rest field ran
    obtain ⟨name, _, ranName, ran⟩ := bind_run_eq_ok.mp ran
    obtain ⟨tableOid, _, ranTable, ran⟩ := bind_run_eq_ok.mp ran
    obtain ⟨columnId, _, ranColumn, ran⟩ := bind_run_eq_ok.mp ran
    obtain ⟨typeOid, _, ranType, ran⟩ := bind_run_eq_ok.mp ran
    obtain ⟨typeSize, _, ranSize, ran⟩ := bind_run_eq_ok.mp ran
    obtain ⟨typeModifier, _, ranModifier, ran⟩ := bind_run_eq_ok.mp ran
    obtain ⟨format, _, ranFormat, ranPure⟩ := bind_run_eq_ok.mp ran
    cases ranPure
    obtain ⟨validName, takenName⟩ := coded_cstr.takes ranName
    obtain ⟨validTable, takenTable⟩ := coded_i32.takes ranTable
    obtain ⟨validColumn, takenColumn⟩ := coded_i16.takes ranColumn
    obtain ⟨validType, takenType⟩ := coded_i32.takes ranType
    obtain ⟨validSize, takenSize⟩ := coded_i16.takes ranSize
    obtain ⟨validModifier, takenModifier⟩ := coded_i32.takes ranModifier
    obtain ⟨-, takenFormat⟩ := coded_format.takes ranFormat
    refine ⟨⟨validName, validTable, validColumn, validType, validSize, validModifier⟩, ?_⟩
    rw [takenName, takenTable, takenColumn, takenType, takenSize, takenModifier, takenFormat]
    simp [encodeField]

/-- The byte before a field; the end of the fields has the code 0. -/
def errorCode (found : Option (Nat × String)) : Nat := found.elim 0 Prod.fst

def errorText (found : Option (Nat × String)) : Octets := found.elim [] fun field => cString field.2

private theorem coded_readErrorField : Coded readErrorField (fun found => toBe 1 (errorCode found) ++ errorText found)
      (fun found => ∀ field ∈ found, (0 < field.1 ∧ field.1 < 256) ∧ NulFree field.2) := by
  refine coded_u8.bind errorCode ?_ ?_
  · intro found isValid
    cases found with
    | none => exact ⟨by decide, reads_pure none⟩
    | some field =>
      obtain ⟨⟨positive, small⟩, nulFree⟩ := isValid field rfl
      refine ⟨small, ?_⟩
      have isCode : errorCode (some field) ≠ 0 := Nat.ne_of_gt positive
      rw [if_neg isCode]
      exact (coded_cstr.reads nulFree).map
  · intro code input rest found small ran
    split at ran
    · rename_i isZero
      cases ran
      exact ⟨nofun, isZero.symm, rfl⟩
    · rename_i notZero
      obtain ⟨text, middle, ranText, ranPure⟩ := bind_run_eq_ok.mp ran
      cases ranPure
      obtain ⟨nulFree, taken⟩ := coded_cstr.takes ranText
      refine ⟨?_, rfl, taken⟩
      rintro field ⟨⟩
      exact ⟨⟨Nat.pos_of_ne_zero notZero, small⟩, nulFree⟩

private theorem coded_errorFields : Coded (terminated readErrorField)
    (fun fields => fields.flatMap encodeErrorField ++ [0])
      (fun fields => ∀ field ∈ fields, (0 < field.1 ∧ field.1 < 256) ∧ NulFree field.2) := by
  have proper : ∀ field, toBe 1 (errorCode (some field)) ++ errorText (some field) ≠ [] := by simp [toBe, toLe]
  have coded := coded_readErrorField.terminated proper
  refine ⟨fun fields isValid => coded.reads ⟨by simp, fun field member => ?_⟩, fun input rest fields ran => ?_⟩
  · rintro other ⟨⟩
    exact isValid field member
  · obtain ⟨⟨-, isValid⟩, taken⟩ := coded.takes ran
    exact ⟨fun field member => isValid field member field rfl, taken⟩

private theorem reads_content {frame : Frame} (content : frame.Content) : Reads
    (readContent frame.tag) frame.body frame := by
  cases frame with
  | rowDescription fields => exact ((coded_count.counted coded_readField).reads content).map
  | dataRow values => exact ((coded_count.counted coded_nullableBytes).reads content).map
  | parameterDescription oids => exact ((coded_count.counted coded_i32).reads content).map
  | commandComplete tag => exact (coded_cstr.reads content).map
  | errorResponse fields => exact (coded_errorFields.reads content).map

private theorem takes_content {tag : Nat} {input rest : Buffer UInt8} {frame : Frame}
    (ran : (readContent tag).run input = .ok (frame, rest)) : frame.Content := by
  unfold readContent at ran
  split at ran
  · obtain ⟨fields, middle, ran, ranPure⟩ := bind_run_eq_ok.mp ran
    cases ranPure
    exact ((coded_count.counted coded_readField).takes ran).1
  · split at ran
    · obtain ⟨values, middle, ran, ranPure⟩ := bind_run_eq_ok.mp ran
      cases ranPure
      exact ((coded_count.counted coded_nullableBytes).takes ran).1
    · split at ran
      · obtain ⟨oids, middle, ran, ranPure⟩ := bind_run_eq_ok.mp ran
        cases ranPure
        exact ((coded_count.counted coded_i32).takes ran).1
      · split at ran
        · obtain ⟨text, middle, ran, ranPure⟩ := bind_run_eq_ok.mp ran
          cases ranPure
          exact (coded_cstr.takes ran).1
        · split at ran
          · obtain ⟨fields, middle, ran, ranPure⟩ := bind_run_eq_ok.mp ran
            cases ranPure
            exact (coded_errorFields.takes ran).1
          · cases ran

/-- What is read as a frame has its counts and lengths, strings without a zero byte, and a length
that fits its 32 bits. -/
theorem content_of_readFrame {input : Octets} {frame : Frame} (ran : readFrame input = .ok frame) :
    frame.Content ∧ input.length ≤ 2 ^ 31 := by
  obtain ⟨⟨tag, afterTag⟩, ranTag, ran⟩ := bind_eq_ok.mp ran
  obtain ⟨⟨length, afterLength⟩, ranLength, ran⟩ := bind_eq_ok.mp ran
  simp only at ran
  split at ran
  · cases ran
  · rename_i notShort
    obtain ⟨⟨body, afterBody⟩, ranBody, ran⟩ := bind_eq_ok.mp ran
    obtain ⟨⟨_, afterFinish⟩, ranFinish, ran⟩ := bind_eq_ok.mp ran
    obtain ⟨⟨content, afterFrame⟩, ranFrame, ran⟩ := bind_eq_ok.mp ran
    obtain ⟨⟨_, last⟩, ranLast, ranPure⟩ := bind_eq_ok.mp ran
    cases ranPure
    refine ⟨takes_content ranFrame, ?_⟩
    have takenTag := congrArg List.length (coded_u8.takes ranTag).2
    obtain ⟨⟨-, small⟩, takenLength⟩ := coded_i32.takes ranLength
    obtain ⟨bodyLength, takenBody⟩ := (coded_takeBytes _).takes ranBody
    rw [WireMessage.run_finish ranFinish, List.append_nil] at takenBody
    rw [takenLength, takenBody] at takenTag
    simp only [List.length_append, length_toBe, be32, id, bodyLength] at takenTag
    omega

/-- Such a frame is read back. -/
theorem readFrame_write {frame : Frame} (content : frame.Content) (length : frame.write.length ≤ 2 ^ 31) :
    readFrame frame.write = .ok frame := by
  simp only [Frame.write, List.length_append, length_toBe, be32] at length
  have small : frame.tag < 256 := by cases frame <;> simp [Frame.tag]
  have isLength : -2 ^ 31 ≤ (frame.body.length : Int) + 4 ∧ (frame.body.length : Int) + 4 < 2 ^ 31 := by omega
  have ranTag := coded_u8.reads small (be32 (frame.body.length + 4) ++ frame.body)
  have ranLength := coded_i32.reads isLength frame.body
  have ranBody : (takeBytes frame.body.length).run ⟨frame.body⟩ = .ok (frame.body, ⟨[]⟩) := by
    simpa using (coded_takeBytes frame.body.length).reads rfl []
  have ranContent : (readContent frame.tag).run ⟨frame.body⟩ = .ok (frame, ⟨[]⟩) := by
    simpa using reads_content content []
  have counted : ((frame.body.length : Int) + 4).toNat - 4 = frame.body.length := by omega
  rw [readFrame, Frame.write, ranTag, ok_bind]
  simp only
  rw [ranLength, ok_bind]
  simp only
  rw [if_neg (by omega), counted, ranBody, ok_bind]
  simp only
  rw [WireMessage.run_finish_nil, ok_bind, ranContent, ok_bind, WireMessage.run_finish_nil]
  rfl

/-! ## What the session sends -/

/-- The number of a type in PostgreSQL. -/
def typeOid : DataType → Int
  | .boolean => 16
  | .int4 => 23
  | .int8 => 20
  | .float8 => 701
  | .text => 25
  | .timestamp => 1184
  | .uuid => 2950
  | .json => 114

/-- The width of a type in bytes, -1 if it varies. -/
def typeSize : DataType → Int
  | .boolean => 1
  | .int4 => 4
  | .int8 | .float8 | .timestamp => 8
  | .uuid => 16
  | .text | .json => -1

/-- The engine computes all its columns: they come from no table. -/
def fieldMeta (field : FieldDescription) (format : Format) : FieldMeta where
  name := field.name
  tableOid := 0
  columnId := 0
  typeOid := typeOid field.dataType
  typeSize := typeSize field.dataType
  typeModifier := -1
  format := format

def rowDescription (fields : List FieldDescription) (formats : List Format) : Frame :=
  .rowDescription (fields.zipIdx.map fun field => fieldMeta field.1 ((formats[field.2]?).getD .text))

/-- The payloads of a row, each in its format. -/
def encodeValues (textFormats : TextFormats) (row : Row) (formats : List Format) : Checked (List (Option Octets)) :=
  row.values.zipIdx.mapM fun value => encodeValue textFormats value.1 ((formats[value.2]?).getD .text)

def parameterDescription (types : List DataType) : Frame := .parameterDescription (types.map typeOid)

def errorMessage (formats : TextFormats) : FerriteError → String
  | .tableNotFound name => s!"table not found: {name}"
  | .columnNotFound name => s!"column not found: {name}"
  | .typeMismatch expected actual => s!"type mismatch: expected {debugType expected}, got {debugType actual}"
  | .rowNotFound => "row not found"
  | .txnNotActive txn => s!"transaction {txn} is not active"
  | .permissionDenied message => s!"permission denied: {message}"
  | .serializationFailure => "serialization failure: concurrent update conflict"
  | .storage message => s!"storage error: {message}"
  | .parse message => s!"parse error: {message}"
  | .plan message => s!"planning error: {message}"
  | .exec message => s!"execution error: {message}"
  | .protocol message => s!"protocol error: {message}"
  | .objectAlreadyExists what => s!"already exists: {what}"
  | .uniqueViolation constraint key =>
    let described := ", ".intercalate (key.map (debugValue formats))
    s!"duplicate key value violates unique constraint {debugText formats constraint}: ({described})"
  | .timeout message => s!"canceling statement due to timeout: {message}"
  | .resourceLimit message => s!"resource limit exceeded: {message}"
  | .invalidDefinition message => s!"invalid definition: {message}"

namespace ProtocolError

def message (formats : TextFormats) : ProtocolError → String
  | .malformed message => s!"malformed message: {message}"
  | .handlerPanic message => s!"internal error: {message}"
  | .ferrite error => errorMessage formats error

def sqlstate : ProtocolError → String
  | .malformed _ => "08P01"
  | .handlerPanic _ => "XX000"
  | .ferrite error => WireError.ferriteSqlstate error

end ProtocolError

def severity (fatal : Bool) : String := if fatal then "FATAL" else "ERROR"

/-- The severity, twice, the state and the message. -/
def errorResponse (formats : TextFormats) (fatal : Bool) (error : ProtocolError) : Frame :=
  .errorResponse [(83, severity fatal), (86, severity fatal), (67, error.sqlstate), (77, error.message formats)]

/-- What the session sends. -/
inductive Sent where
  | rowDescription (fields : List FieldDescription) (formats : List Format)
  | dataRow (row : Row) (formats : List Format)
  | parameterDescription (types : List DataType)
  | commandComplete (tag : String)
  | errorResponse (fatal : Bool) (error : ProtocolError)

namespace Sent

variable (textFormats : TextFormats)

def frame : Sent → Checked Frame
  | .rowDescription fields formats => pure (Protocol.rowDescription fields formats)
  | .dataRow row formats => Frame.dataRow <$> encodeValues textFormats row formats
  | .parameterDescription types => pure (Protocol.parameterDescription types)
  | .commandComplete tag => pure (.commandComplete tag)
  | .errorResponse fatal error => pure (Protocol.errorResponse textFormats fatal error)

/-- At most 32767 columns or parameters, and no zero byte in a name, a tag or a message. -/
def Plain : Sent → Prop
  | .rowDescription fields _ => fields.length < 2 ^ 15 ∧ ∀ field ∈ fields, NulFree field.name
  | .dataRow row _ => row.values.length < 2 ^ 15
  | .parameterDescription types => types.length < 2 ^ 15
  | .commandComplete tag => NulFree tag
  | .errorResponse _ error => NulFree (error.message textFormats)

/-- How many bytes a value takes. -/
def payloadSize (value : Value) (format : Format) : Nat :=
  match encodeValue textFormats value format with
  | .ok (some bytes) => bytes.length
  | _ => 0

/-- How many bytes it takes to send. -/
def size : Sent → Nat
  | .rowDescription fields _ => 7 + (fields.map fun field => field.name.utf8ByteSize + 19).sum
  | .dataRow row formats =>
    7 + (row.values.zipIdx.map fun value => 4 + payloadSize textFormats value.1 ((formats[value.2]?).getD .text)).sum
  | .parameterDescription types => 7 + 4 * types.length
  | .commandComplete tag => 6 + tag.utf8ByteSize
  | .errorResponse _ error => 29 + (error.message textFormats).utf8ByteSize

/-- A payload stands for a value: it is what the value is written as, only `NULL` has none, and every
value but an instant, and a float as text, is what the payload is read as. -/
def Carries (value : Value) (format : Format) (payload : Option Octets) : Prop :=
  encodeValue textFormats value format = .ok payload ∧ (payload = none ↔ value.isNull = true) ∧
    ∀ dataType, value.dataType = some dataType → dataType ≠ .timestamp → (dataType = .float8 → format = .binary) →
      decodeValue (wireFormats textFormats) dataType format payload = .ok value

/-- A client that reads the frame is told what was sent: the names, types and formats of the columns,
the values of the row, the types of the parameters, the tag, or the state and the message. -/
def Tells : Sent → Frame → Prop
  | .rowDescription fields formats, .rowDescription columns =>
    columns.map FieldMeta.name = fields.map FieldDescription.name ∧
      (columns.map fun column => typeFromOid column.typeOid) = fields.map (fun field => some field.dataType) ∧
      columns.map FieldMeta.format = (List.range fields.length).map fun position => (formats[position]?).getD .text
  | .dataRow row formats, .dataRow payloads =>
    List.Forall₂ (fun value => Carries textFormats value.1 ((formats[value.2]?).getD .text)) row.values.zipIdx payloads
  | .parameterDescription types, .parameterDescription oids => oids.map typeFromOid = types.map some
  | .commandComplete tag, .commandComplete read => read = tag
  | .errorResponse _ error, .errorResponse fields =>
    fields.filter (·.1 = 67) = [(67, error.sqlstate)] ∧ fields.filter (·.1 = 77) = [(77, error.message textFormats)]
  | _, _ => False

end Sent

private theorem encodeText_returns (textFormats : TextFormats) (value : Value) :
    ∃ text, encodeText textFormats value = .ok text := by
  cases value with
  | timestamp micros =>
    have lower := micros.le_toInt
    have upper := micros.toInt_lt
    rw [encodeText, formatTimestamp, partsFromMicros_eq (by omega) (by omega)]
    exact ⟨_, rfl⟩
  | _ => exact ⟨_, rfl⟩

private theorem encodeValue_returns (textFormats : TextFormats) (value : Value) (format : Format) :
    ∃ raw, encodeValue textFormats value format = .ok raw := by
  unfold encodeValue
  split
  · exact ⟨none, rfl⟩
  · split
    · obtain ⟨text, written⟩ := encodeText_returns textFormats value
      rw [written]
      exact ⟨_, rfl⟩
    · exact ⟨_, rfl⟩

/-- A row always has its payloads, one for each value. -/
theorem encodeValues_returns (textFormats : TextFormats) (row : Row) (formats : List Format) :
    ∃ values, encodeValues textFormats row formats = .ok values ∧ values.length = row.values.length := by
  choose raw encoded using fun value : Value × Nat =>
    encodeValue_returns textFormats value.1 ((formats[value.2]?).getD .text)
  refine ⟨row.values.zipIdx.map raw, mapM_eq_ok.mpr ?_, by simp⟩
  exact List.forall₂_map_right_iff.mpr (List.forall₂_same.mpr fun value _ => encoded value)

private theorem valid_fieldMeta {field : FieldDescription} (nulFree : NulFree field.name) (format : Format) :
    (fieldMeta field format).Valid := by
  refine ⟨nulFree, by simp [fieldMeta], by simp [fieldMeta], ?_, ?_, by simp [fieldMeta]⟩ <;>
  · simp only [fieldMeta]
    cases field.dataType <;> decide

private theorem carries_encodeValue {textFormats : TextFormats} {value : Value} {format : Format}
    {payload : Option Octets}
    (encoded : encodeValue textFormats value format = .ok payload) : Sent.Carries textFormats value format payload := by
  refine ⟨encoded, ?_⟩
  unfold encodeValue at encoded
  split at encoded
  · cases encoded
    refine ⟨by simp_all, ?_⟩
    cases value <;> simp_all [Value.isNull, Value.dataType]
  · rename_i notNull
    cases format with
    | text =>
      obtain ⟨text, written, rfl⟩ := map_eq_ok.mp encoded
      refine ⟨by simp [notNull], fun dataType isType noInstant binary => ?_⟩
      obtain ⟨_, isText, read⟩ := decodeText_encodeText textFormats isType noInstant fun isFloat => nomatch binary isFloat
      cases written.symm.trans isText
      exact read
    | binary =>
      cases encoded
      exact ⟨by simp [notNull], fun dataType isType noInstant _ => decodeBinary_encodeBinary isType noInstant⟩

private theorem length_cString (text : String) : (cString text).length = text.utf8ByteSize + 1 := by
  simp [cString, asBytes]

private theorem length_encodeNullable (payload : Option Octets) :
    (encodeNullable payload).length = 4 + (payload.elim 0 List.length) := by
  cases payload <;> simp [encodeNullable, be32]

/-- The payloads of a row take what its values do. -/
private theorem length_payloads {textFormats : TextFormats} {formats : List Format} {values : List (Value × Nat)}
    {payloads : List (Option Octets)} (each : List.Forall₂ (fun value payload =>
      encodeValue textFormats value.1 ((formats[value.2]?).getD .text) = .ok payload) values payloads) :
    (payloads.flatMap encodeNullable).length = (values.map fun value =>
      4 + Sent.payloadSize textFormats value.1 ((formats[value.2]?).getD .text)).sum := by
  induction each with
  | nil => rfl
  | @cons value payload _ _ isPayload _ ih =>
    rw [List.flatMap_cons, List.length_append, ih, length_encodeNullable, List.map_cons, List.sum_cons,
      Sent.payloadSize, isPayload]
    cases payload <;> rfl

/-- What is sent is written in so many bytes, and the frame tells it. -/
theorem frame_tells {textFormats : TextFormats} {sent : Sent} {frame : Frame}
    (written : sent.frame textFormats = .ok frame) :
    sent.Tells textFormats frame ∧ frame.write.length = sent.size textFormats := by
  have typed : ∀ dataType, typeFromOid (typeOid dataType) = some dataType := by
    intro dataType
    cases dataType <;> rfl
  have framed : frame.write.length = 5 + frame.body.length := by
    simp only [Frame.write, List.length_append, length_toBe, be32]
    omega
  rw [framed]
  cases sent with
  | rowDescription fields formats =>
    cases written
    have mapped {β : Type} (column : FieldMeta → β) (given : FieldDescription → β)
        (same : ∀ field format, column (fieldMeta field format) = given field) :
        (fields.zipIdx.map fun field => column (fieldMeta field.1 ((formats[field.2]?).getD .text))) = fields.map given := by
      simp only [same]
      rw [← Function.comp_def, ← List.map_map, List.zipIdx_map_fst]
    refine ⟨⟨?_, ?_, ?_⟩, ?_⟩
    · exact List.map_map.trans (mapped FieldMeta.name FieldDescription.name fun _ _ => rfl)
    · exact List.map_map.trans (mapped (fun column => typeFromOid column.typeOid) (fun field => some field.dataType)
        fun field _ => typed field.dataType)
    · rw [List.range_eq_range', ← List.zipIdx_map_snd 0 fields, List.map_map, List.map_map]
      rfl
    · have sizes := mapped (fun column => (encodeField column).length) (fun field => field.name.utf8ByteSize + 19)
        fun field format => by simp [encodeField, length_cString, be16, be32, fieldMeta]
      simp only [Frame.body, rowDescription, List.length_append, List.length_flatMap, List.map_map, Function.comp_def,
        sizes, Sent.size, be16, length_toBe]
      omega
  | dataRow row formats =>
    obtain ⟨payloads, encoded, rfl⟩ := map_eq_ok.mp written
    have each := mapM_eq_ok.mp encoded
    refine ⟨each.imp fun _ _ => carries_encodeValue, ?_⟩
    have sizes := length_payloads each
    simp only [Frame.body, List.length_append, sizes, Sent.size, be16, length_toBe]
    omega
  | parameterDescription types =>
    cases written
    refine ⟨by simp [Sent.Tells, parameterDescription, typed], ?_⟩
    simp [Frame.body, parameterDescription, Sent.size, be16, be32, List.length_flatMap, Function.comp_def]
    omega
  | commandComplete tag =>
    cases written
    exact ⟨rfl, by simp only [Frame.body, length_cString, Sent.size]; omega⟩
  | errorResponse fatal error =>
    cases written
    refine ⟨⟨rfl, rfl⟩, ?_⟩
    have severities : (severity fatal).utf8ByteSize = 5 := by cases fatal <;> rfl
    have states : error.sqlstate.utf8ByteSize = 5 := by
      cases error with
      | ferrite error => cases error <;> rfl
      | malformed _ | handlerPanic _ => rfl
    simp [Frame.body, errorResponse, encodeErrorField, length_cString, Sent.size, severities, states]
    omega

/-- What a frame that can be read tells is plain. -/
theorem plain_of_tells {textFormats : TextFormats} {sent : Sent} {frame : Frame} (content : frame.Content)
    (tells : sent.Tells textFormats frame) : sent.Plain textFormats := by
  cases sent <;> cases frame <;> try exact tells.elim
  case rowDescription fields formats columns =>
    have same : columns.length = fields.length := by simpa using congrArg List.length tells.1
    refine ⟨lt_of_eq_of_lt same.symm content.1, fun field member => ?_⟩
    have named : field.name ∈ columns.map FieldMeta.name := tells.1 ▸ List.mem_map_of_mem member
    obtain ⟨column, isColumn, isName⟩ := List.mem_map.mp named
    exact isName ▸ (content.2 column isColumn).1
  case dataRow row formats payloads =>
    have same : row.values.length = payloads.length := by simpa using tells.length_eq
    exact lt_of_eq_of_lt same content.1
  case parameterDescription types oids =>
    have same : oids.length = types.length := by simpa using congrArg List.length tells
    exact lt_of_eq_of_lt same.symm content.1
  case commandComplete tag read => exact tells ▸ content
  case errorResponse fatal error fields =>
    have member : (77, error.message textFormats) ∈ fields.filter (·.1 = 77) := by simp [tells.2]
    exact (content _ (List.mem_filter.mp member).1).2

private theorem length_le_flatMap {value : Option Octets} {values : List (Option Octets)} (member : value ∈ values)
    {bytes : Octets} (isBytes : bytes ∈ value) : bytes.length ≤ (values.flatMap encodeNullable).length := by
  obtain ⟨before, after, rfl⟩ := List.append_of_mem member
  cases isBytes
  simp only [List.flatMap_append, List.flatMap_cons, List.length_append, encodeNullable, Option.getD_some]
  omega

/-- A frame is made of everything that is sent, and what is plain and short can be read. -/
theorem content_of_plain (textFormats : TextFormats) (sent : Sent) : ∃ frame, sent.frame textFormats = .ok frame ∧
      (sent.Plain textFormats → frame.write.length ≤ 2 ^ 31 → frame.Content) := by
  cases sent with
  | rowDescription fields formats =>
    refine ⟨_, rfl, fun plain _ => ⟨by simpa using plain.1, List.forall_mem_map.mpr fun field member => ?_⟩⟩
    exact valid_fieldMeta (plain.2 field.1 (List.fst_mem_of_mem_zipIdx member)) _
  | dataRow row formats =>
    obtain ⟨values, encoded, length⟩ := encodeValues_returns textFormats row formats
    refine ⟨.dataRow values, by rw [Sent.frame, encoded]; rfl, fun plain short => ⟨?_, ?_⟩⟩
    · exact length.symm ▸ plain
    · intro value member bytes isBytes
      have inside := length_le_flatMap member isBytes
      simp only [Frame.write, Frame.body, List.length_append, length_toBe, be32] at short
      omega
  | parameterDescription types =>
    refine ⟨_, rfl, fun plain _ => ⟨lt_of_eq_of_lt (List.length_map _) plain, List.forall_mem_map.mpr fun dataType _ => ?_⟩⟩
    cases dataType <;> decide
  | commandComplete tag => exact ⟨_, rfl, fun plain _ => plain⟩
  | errorResponse fatal error =>
    have severities : NulFree (severity fatal) := by cases fatal <;> decide
    have states : NulFree error.sqlstate := by
      cases error with
      | ferrite error =>
        simp only [ProtocolError.sqlstate]
        cases error <;> simp only [WireError.ferriteSqlstate] <;> decide
      | malformed _ => exact (by decide : NulFree "08P01")
      | handlerPanic _ => exact (by decide : NulFree "XX000")
    refine ⟨_, rfl, fun plain _ => ?_⟩
    change NulFree (error.message textFormats) at plain
    simp [errorResponse, Frame.Content, severities, states, plain]

/-- A table `t (a INT)`, and a parameter with a zero byte in it. -/
def boundText : Plan.Planner Empty Empty Empty :=
  { Plan.Planner.bare with
    tableId := fun _ _ => .ok (some 1)
    tableSchema := fun _ => .ok ⟨[⟨"a", .int4, true, none⟩]⟩
    params := [.text "a\x00bc"] }

/-- `SELECT datetime($1) FROM t`. -/
def selectDatetime : Ast.Statement Empty :=
  .query (.mk [] (.select ⟨false, [.expr (.function ⟨"datetime", .list [.parameter 1], false⟩) none],
    [⟨.table ⟨["t"]⟩ none, []⟩], none, [], none⟩) [] none none)

end Ferrite.Protocol
