import Ferrite.Logical.Decoding
import Ferrite.Storage.Page

/-!
# Encoded rows and version chains

The byte formats of a row (`ferrite-storage/src/codec.rs`) and of the versions of a row
(`ferrite-storage/src/version.rs`). Numbers are little-endian, a text stands behind its
length, and both decoders refuse what is left over at the end.
-/

namespace Ferrite.Storage.Codec

open Logical Reader

/-! ## Writing -/

def tagNull : Nat := 0
def tagBoolean : Nat := 1
def tagInt4 : Nat := 2
def tagInt8 : Nat := 3
def tagFloat8 : Nat := 4
def tagText : Nat := 5
def tagTimestamp : Nat := 6
def tagUuid : Nat := 7
def tagJson : Nat := 8

def asBytes (text : String) : Bytes := text.toUTF8.data.toList

/-- A byte string behind its length, which is cut to 32 bits. -/
def lenPrefixed (bytes : Bytes) : Bytes := toLe 4 bytes.length ++ bytes

def encodeValue : Value → Bytes
  | .null => toLe 1 tagNull
  | .boolean value => toLe 1 tagBoolean ++ toLe 1 value.toNat
  | .int4 value => toLe 1 tagInt4 ++ toLe 4 value.toUInt32.toNat
  | .int8 value => toLe 1 tagInt8 ++ toLe 8 value.toUInt64.toNat
  | .float8 bits => toLe 1 tagFloat8 ++ toLe 8 bits.toNat
  | .text value => toLe 1 tagText ++ lenPrefixed (asBytes value)
  | .timestamp value => toLe 1 tagTimestamp ++ toLe 8 value.toUInt64.toNat
  | .uuid value => toLe 1 tagUuid ++ toLe 16 value.toNat
  | .json value => toLe 1 tagJson ++ lenPrefixed (asBytes value)

def encodeRow (row : Row) : Bytes := toLe 2 row.values.length ++ row.values.flatMap encodeValue

/-- A version of a row as it is stored, its row still encoded. -/
structure StoredVersion where
  xmin : UInt64
  xmax : UInt64
  bytes : Bytes
deriving DecidableEq

def encodeVersion (version : StoredVersion) : Bytes :=
  toLe 8 version.xmin.toNat ++ (toLe 8 version.xmax.toNat ++ lenPrefixed version.bytes)

def encodeChain (versions : List StoredVersion) : Bytes := toLe 2 versions.length ++ versions.flatMap encodeVersion

/-! ## Reading -/

abbrev Decode := Reader (Buffer UInt8) FerriteError

def corrupt (what : String) : FerriteError := .storage s!"corrupt row encoding: {what}"

/-- The next bytes, as they are. -/
def takeBytes (count : Nat) : Decode Bytes := take (corrupt "unexpected end of buffer") count

/-- A number of so many bytes. -/
def scalar (width : Nat) : Decode Nat := do
  let bytes ← takeBytes width
  pure (ofLe bytes)

/-- The string some bytes spell. -/
def fromUtf8 (bytes : Bytes) : Decode String :=
  match String.fromUTF8? ⟨bytes.toArray⟩ with
  | some text => pure text
  | none => fail fun _ => corrupt "invalid utf-8 in text value"

def decodeString : Decode String := do
  let length ← scalar 4
  let bytes ← takeBytes length
  fromUtf8 bytes

def decodeValue : Decode Value := do
  let tag ← scalar 1
  match tag with
  | 0 => pure .null
  | 1 => do
    let value ← scalar 1
    pure (.boolean (decide (value ≠ 0)))
  | 2 => do
    let value ← scalar 4
    pure (.int4 (UInt32.ofNat value).toInt32)
  | 3 => do
    let value ← scalar 8
    pure (.int8 (UInt64.ofNat value).toInt64)
  | 4 => do
    let bits ← scalar 8
    pure (.float8 (UInt64.ofNat bits))
  | 5 => do
    let value ← decodeString
    pure (.text value)
  | 6 => do
    let value ← scalar 8
    pure (.timestamp (UInt64.ofNat value).toInt64)
  | 7 => do
    let value ← scalar 16
    pure (.uuid (BitVec.ofNat 128 value))
  | 8 => do
    let value ← decodeString
    pure (.json value)
  | other => fail fun _ => corrupt s!"unknown value tag {other}"

def decodeValues : Decode Row := do
  let count ← scalar 2
  let values ← times decodeValue count
  pure ⟨values⟩

def decodeRow : Bytes → Except FerriteError Row := whole decodeValues (corrupt "trailing bytes after row")

def decodeVersion : Decode StoredVersion := do
  let xmin ← scalar 8
  let xmax ← scalar 8
  let length ← scalar 4
  let bytes ← takeBytes length
  pure ⟨UInt64.ofNat xmin, UInt64.ofNat xmax, bytes⟩

def decodeVersions : Decode (List StoredVersion) := do
  let count ← scalar 2
  times decodeVersion count

/-- The refusal of a chain that goes on. -/
def chainTrailing : FerriteError := .storage "corrupt version chain: trailing bytes"

def decodeChain : Bytes → Except FerriteError (List StoredVersion) := whole decodeVersions chainTrailing

/-! ## What is written is read -/

variable {width : Nat} {value : Value} {row : Row} {version : StoredVersion} {chain : List StoredVersion}

private theorem reads_takeBytes (bytes : Bytes) : Reads (takeBytes bytes.length) bytes bytes := reads_take rfl

theorem reads_scalar {value : Nat} (fits : value < 256 ^ width) : Reads (scalar width) (toLe width value) value := by
  have bytes : Reads (takeBytes width) (toLe width value) (toLe width value) := reads_take (length_toLe width value)
  have read : Reads (scalar width) (toLe width value) (ofLe (toLe width value)) := bytes.map
  rwa [ofLe_toLe_of_lt fits] at read

theorem fromUTF8_asBytes (text : String) : String.fromUTF8? ⟨(asBytes text).toArray⟩ = some text := by
  simp only [asBytes, Array.toArray_toList]
  exact dif_pos text.isValidUTF8

private theorem reads_fromUtf8 (text : String) : Reads (fromUtf8 (asBytes text)) [] text := by
  rw [fromUtf8, fromUTF8_asBytes]
  exact reads_pure text

private theorem reads_decodeString {text : String} (fits : (asBytes text).length < 2 ^ 32) :
    Reads decodeString (lenPrefixed (asBytes text)) text := by
  have bytes := (reads_takeBytes (asBytes text)).bind (reads_fromUtf8 text)
  rw [List.append_nil] at bytes
  exact (reads_scalar fits).bind bytes

/-- The strings of a value fit behind a 32-bit length. -/
def ValueFits : Value → Prop
  | .text value | .json value => (asBytes value).length < 2 ^ 32
  | _ => True

private theorem reads_field {number : Nat} {make : Nat → Value} (fits : number < 256 ^ width)
    (back : make number = value) :
    Reads (scalar width >>= fun number => pure (make number)) (toLe width number) value := by
  subst back
  exact (reads_scalar fits).map

private theorem reads_decodeValue (fits : ValueFits value) : Reads decodeValue (encodeValue value) value := by
  cases value with
  | null => exact (reads_scalar (by decide)).bind (reads_pure _)
  | boolean value =>
    refine (reads_scalar (by decide)).bind (reads_field ?_ ?_)
    · cases value <;> decide
    · cases value <;> rfl
  | int4 value => exact (reads_scalar (by decide)).bind (reads_field (value.toUInt32.toNat_lt) (by simp))
  | int8 value => exact (reads_scalar (by decide)).bind (reads_field (value.toUInt64.toNat_lt) (by simp))
  | float8 bits => exact (reads_scalar (by decide)).bind (reads_field (bits.toNat_lt) (by simp))
  | text value => exact (reads_scalar (by decide)).bind (reads_decodeString fits).map
  | timestamp value => exact (reads_scalar (by decide)).bind (reads_field (value.toUInt64.toNat_lt) (by simp))
  | uuid value => exact (reads_scalar (by decide)).bind (reads_field (value.isLt) (by simp))
  | json value => exact (reads_scalar (by decide)).bind (reads_decodeString fits).map

/-- The rows whose lengths fit into the fields they are written to. -/
structure RowFits (row : Row) : Prop where
  count : row.values.length < 2 ^ 16
  values : ∀ value ∈ row.values, ValueFits value

private theorem reads_decodeValues (fits : RowFits row) : Reads decodeValues (encodeRow row) row := by
  have values := reads_times fun value member => reads_decodeValue (fits.values value member)
  exact (reads_scalar fits.count).bind values.map

/-- The chains whose lengths fit. -/
structure ChainFits (chain : List StoredVersion) : Prop where
  count : chain.length < 2 ^ 16
  payloads : ∀ version ∈ chain, version.bytes.length < 2 ^ 32

private theorem reads_decodeVersion (fits : version.bytes.length < 2 ^ 32) :
    Reads decodeVersion (encodeVersion version) version := by
  refine (reads_scalar version.xmin.toNat_lt).bind ((reads_scalar version.xmax.toNat_lt).bind ?_)
  refine (reads_scalar fits).bind ?_
  simp only [UInt64.ofNat_toNat]
  exact (reads_takeBytes version.bytes).map

private theorem reads_decodeVersions (fits : ChainFits chain) : Reads decodeVersions (encodeChain chain) chain := by
  have versions := reads_times fun version member => reads_decodeVersion (fits.payloads version member)
  exact (reads_scalar fits.count).bind versions

/-! ## What follows is not looked at -/

private theorem local_takeBytes (count : Nat) : Local (takeBytes count) := local_take _ count

private theorem local_scalar (width : Nat) : Local (scalar width) := (local_takeBytes width).bind fun _ => local_pure _

private theorem local_fromUtf8 (bytes : Bytes) : Local (fromUtf8 bytes) := by
  rw [fromUtf8]
  split
  · exact local_pure _
  · exact local_fail _

private theorem local_decodeString : Local decodeString :=
  (local_scalar 4).bind fun length => (local_takeBytes length).bind local_fromUtf8

private theorem local_decodeValue : Local decodeValue := by
  refine (local_scalar 1).bind fun tag => ?_
  split
  · exact local_pure _
  · exact (local_scalar 1).bind fun _ => local_pure _
  · exact (local_scalar 4).bind fun _ => local_pure _
  · exact (local_scalar 8).bind fun _ => local_pure _
  · exact (local_scalar 8).bind fun _ => local_pure _
  · exact local_decodeString.bind fun _ => local_pure _
  · exact (local_scalar 8).bind fun _ => local_pure _
  · exact (local_scalar 16).bind fun _ => local_pure _
  · exact local_decodeString.bind fun _ => local_pure _
  · exact local_fail _

private theorem local_decodeValues : Local decodeValues :=
  (local_scalar 2).bind fun count => (local_times local_decodeValue count).bind fun _ => local_pure _

private theorem local_decodeVersion : Local decodeVersion :=
  (local_scalar 8).bind fun _ => (local_scalar 8).bind fun _ => (local_scalar 4).bind fun length =>
    (local_takeBytes length).bind fun _ => local_pure _

private theorem local_decodeVersions : Local decodeVersions :=
  (local_scalar 2).bind fun count => local_times local_decodeVersion count

/-! ## Exact encodings -/

private theorem exact_decodeRow (fits : RowFits row) : Exact decodeRow (encodeRow row) row :=
  exact_whole (reads_decodeValues fits) local_decodeValues

private theorem exact_decodeChain (fits : ChainFits chain) : Exact decodeChain (encodeChain chain) chain :=
  exact_whole (reads_decodeVersions fits) local_decodeVersions

/-- Rows and chains are read back from their encodings and from nothing that is shorter
or longer, and no encoding goes on where another one ends. -/
theorem encodings_are_exact {row otherRow : Row} {chain otherChain : List StoredVersion} (rowFits : RowFits row)
    (otherRowFits : RowFits otherRow) (chainFits : ChainFits chain) (otherChainFits : ChainFits otherChain) :
    Exact decodeRow (encodeRow row) row ∧ Exact decodeChain (encodeChain chain) chain ∧
      (encodeRow row <+: encodeRow otherRow → row = otherRow) ∧
      (encodeChain chain <+: encodeChain otherChain → chain = otherChain) := by
  refine ⟨exact_decodeRow rowFits, exact_decodeChain chainFits, ?_, ?_⟩
  · exact (exact_decodeRow rowFits).unique (exact_decodeRow otherRowFits)
  · exact (exact_decodeChain chainFits).unique (exact_decodeChain otherChainFits)

theorem small_encodings_are_exact :
    Exact decodeRow (encodeRow ⟨[.text "a", .null]⟩) ⟨[.text "a", .null]⟩ ∧
      Exact decodeChain (encodeChain [⟨1, 0, [7]⟩]) [⟨1, 0, [7]⟩] ∧
      (encodeRow ⟨[.text "a", .null]⟩ <+: encodeRow ⟨[.json "a"]⟩ → (⟨[.text "a", .null]⟩ : Row) = ⟨[.json "a"]⟩) ∧
      (encodeChain [⟨1, 0, [7]⟩] <+: encodeChain [] → ([⟨1, 0, [7]⟩] : List StoredVersion) = []) := by
  apply encodings_are_exact
  · exact ⟨by decide, by simp [ValueFits]; decide⟩
  · exact ⟨by decide, by simp [ValueFits]; decide⟩
  · exact ⟨by decide, by simp⟩
  · exact ⟨by decide, by simp⟩

/-! ## A length cut to 32 bits -/

/-- The length field of a payload says only where its first part ends. -/
theorem lenPrefixed_cut (bytes : Bytes) : lenPrefixed bytes =
      lenPrefixed (bytes.take (bytes.length % 2 ^ 32)) ++ bytes.drop (bytes.length % 2 ^ 32) := by
  have cut : bytes.length % 2 ^ 32 ≤ bytes.length := Nat.mod_le _ _
  have field : toLe 4 bytes.length = toLe 4 (bytes.take (bytes.length % 2 ^ 32)).length := by
    rw [List.length_take_of_le cut]
    exact (toLe_mod 4 bytes.length).symm
  rw [lenPrefixed, lenPrefixed, List.append_assoc, List.take_append_drop, field]

/-- A chain of one version whose payload is too long for its length field is refused. -/
theorem decodeChain_long (long : 2 ^ 32 ≤ version.bytes.length) :
    decodeChain (encodeChain [version]) = .error chainTrailing := by
  have less : version.bytes.length % 2 ^ 32 < 2 ^ 32 := Nat.mod_lt _ (by decide)
  let short : StoredVersion := { version with bytes := version.bytes.take (version.bytes.length % 2 ^ 32) }
  have fits : ChainFits [short] := by
    refine ⟨by simp, fun other member => ?_⟩
    rw [List.mem_singleton.mp member, List.length_take]
    omega
  have parts : encodeChain [version] = encodeChain [short] ++ version.bytes.drop (version.bytes.length % 2 ^ 32) := by
    simp only [encodeChain, encodeVersion, List.flatMap_cons, List.flatMap_nil, List.append_nil, List.append_assoc]
    rw [lenPrefixed_cut version.bytes]
    rfl
  have left : version.bytes.drop (version.bytes.length % 2 ^ 32) ≠ [] := by
    rw [Ne, List.drop_eq_nil_iff]
    omega
  rw [parts]
  exact whole_append (reads_decodeVersions fits) left

def longText (length : Nat) : String := String.ofList (List.replicate length (Char.ofNat 97))

private theorem length_asBytes_longText (length : Nat) : (asBytes (longText length)).length = length := by
  have size : (List.replicate length (Char.ofNat 97)).utf8Encode.size = length := by
    induction length with
    | zero => rfl
    | succ length ih =>
      rw [List.replicate_succ, List.utf8Encode_cons, ByteArray.size_append, ih]
      exact Nat.add_comm _ _
  simpa [asBytes, longText] using size

/-- Two texts that fit make a row that fits, but no payload that does. -/
theorem row_of_long_texts_is_lost :
    ∃ row, RowFits row ∧ decodeChain (encodeChain [⟨1, 0, encodeRow row⟩]) = .error chainTrailing := by
  refine ⟨⟨[.text (longText (2 ^ 31)), .text (longText (2 ^ 31))]⟩, ⟨by decide, ?_⟩, decodeChain_long ?_⟩
  · intro value member
    have same : value = .text (longText (2 ^ 31)) := by simpa using member
    subst same
    rw [ValueFits, length_asBytes_longText]
    decide
  · simp only [encodeRow, List.flatMap_cons, List.length_append, encodeValue, lenPrefixed, length_asBytes_longText]
    omega

end Ferrite.Storage.Codec
