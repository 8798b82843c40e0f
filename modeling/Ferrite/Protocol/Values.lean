import Ferrite.Common.DateText
import Ferrite.Logical.BigEndian
import Ferrite.Logical.Padding
import Ferrite.Protocol.Parameters
import Ferrite.Storage.Codec

/-!
# Values on the wire

`encode_value` of `ferrite-protocol/src/types.rs`: the text and the binary form of a value in
a `DataRow`, and which values `decode_value` reads back from them.
-/

namespace Ferrite.Protocol

open Logical Logical.Gregorian Logical.Text Logical.Numeral Sql
open Storage.Codec (asBytes fromUTF8_asBytes)

/-! ## Writing -/

/-- Two lowercase hexadecimal digits. -/
def hexPair (byte : UInt8) : List Char := [Nat.digitChar (byte.toNat / 16), Nat.digitChar (byte.toNat % 16)]

/-- Groups of 4, 2, 2, 2 and 6 bytes. -/
def formatUuid (bits : BitVec 128) : List Char :=
  let bytes := toBe 16 bits.toNat
  let hex (first last : Nat) := ((bytes.take last).drop first).flatMap hexPair
  hex 0 4 ++ '-' :: (hex 4 6 ++ '-' :: (hex 6 8 ++ '-' :: (hex 8 10 ++ '-' :: hex 10 16)))

def formatDate (parts : Parts) : List Char :=
  padInt 4 parts.date.year ++ '-' :: (padInt 2 parts.date.month ++ '-' :: padInt 2 parts.date.day)

def formatTime (parts : Parts) : List Char :=
  padInt 2 parts.hour ++ ':' :: (padInt 2 parts.minute ++ ':' :: padInt 2 parts.second)

/-- The digits of a fraction, without the zeros at its end. -/
def fractionDigits (micro : Int) : List Char := (padInt 6 micro).rdropWhile (· == '0')

def formatFraction (micro : Int) : List Char := if micro = 0 then [] else '.' :: fractionDigits micro

def formatTimestamp (micros : Int) : Checked (List Char) := do
  let parts ← partsFromMicros micros
  pure (formatDate parts ++ ' ' :: (formatTime parts ++ (formatFraction parts.micro ++ "+00".toList)))

def encodeText (formats : TextFormats) : Value → Checked String
  | .null => pure ""
  | .boolean value => pure (if value then "t" else "f")
  | .int4 value => pure (.ofList (writeInt value.toInt))
  | .int8 value => pure (.ofList (writeInt value.toInt))
  | .float8 bits => pure (formats.writeFloat bits)
  | .text value => pure value
  | .timestamp micros => String.ofList <$> formatTimestamp micros.toInt
  | .uuid value => pure (.ofList (formatUuid value))
  | .json value => pure value

def saturatingSub (value : Int64) (offset : Int) : Int64 :=
  Int64.ofInt (max (-(2 ^ 63 : Int)) (min (2 ^ 63 - 1) (value.toInt - offset)))

def encodeBinary : Value → List UInt8
  | .null => []
  | .boolean value => [if value then 1 else 0]
  | .int4 value => toBe 4 value.toUInt32.toNat
  | .int8 value => toBe 8 value.toUInt64.toNat
  | .float8 bits => toBe 8 bits.toNat
  | .text value => asBytes value
  | .timestamp micros => toBe 8 (saturatingSub micros pgEpochOffset).toUInt64.toNat
  | .uuid value => toBe 16 value.toNat
  | .json value => asBytes value

/-- The payload of a field; `NULL` has none. -/
def encodeValue (formats : TextFormats) (value : Value) (format : Format) : Checked (Option (List UInt8)) :=
  if value.isNull then pure none
  else
    match format with
    | .text => (fun text => some (asBytes text)) <$> encodeText formats value
    | .binary => pure (some (encodeBinary value))

/-- The formats with the timestamps of the wire; a reader that overflows reads nothing. -/
def wireFormats (formats : TextFormats) : TextFormats :=
  { formats with
    parseTimestamp := fun text =>
      match parseTimestamp text with
      | .ok (some micros) => .ok (Int64.ofInt micros)
      | _ => .error (.parse s!"invalid timestamp literal {text.quote}") }

/-! ## Reading back -/

private theorem bigEndian_eq (bytes : List UInt8) : bigEndian bytes = ofLe bytes.reverse := by
  induction bytes using List.reverseRecOn with
  | nil => rfl
  | append_singleton rest last ih =>
    rw [bigEndian] at ih ⊢
    rw [List.foldl_concat, ih, List.reverse_concat, ofLe]
    omega

private theorem bigEndian_toBe {width value : Nat} (fits : value < 256 ^ width) : bigEndian
    (toBe width value) = value := by
  rw [bigEndian_eq, ofLe_reverse_toBe fits]

private theorem fromUtf8_asBytes (text : String) : fromUtf8 (asBytes text) = .ok text := by rw
    [fromUtf8, fromUTF8_asBytes]

private theorem readSized_writeInt {bits : Nat} {value : Int} (lower : -(2 ^ (bits - 1) : Int) ≤ value)
    (upper : value < (2 ^ (bits - 1) : Int)) : readSized bits (.ofList (writeInt value)) = some value := by
  rw [readSized, String.toList_ofList, readInt_writeInt]
  simp [lower, upper]

/-! ### UUIDs -/

private theorem readDigits_hexPair (value : Nat) (byte : UInt8) (rest : List Char) :
    readDigits 16 value (hexPair byte ++ rest) = readDigits 16 (value * 256 + byte.toNat) rest := by
  have bound := byte.toNat_lt
  simp only [hexPair, List.cons_append, List.nil_append, readDigits]
  rw [digitValue_digitChar (by omega), digitValue_digitChar (by omega)]
  simp only [show byte.toNat / 16 < 16 by omega, show byte.toNat % 16 < 16 by omega, if_true]
  congr 1
  omega

private theorem readDigits_hexPairs (value : Nat) (bytes : List UInt8) : readDigits 16 value (bytes.flatMap hexPair) =
      some (bytes.foldl (fun value byte => value * 256 + byte.toNat) value) := by
  induction bytes generalizing value with
  | nil => rfl
  | cons byte rest ih => rw [List.flatMap_cons, readDigits_hexPair, ih, List.foldl_cons]

private theorem not_dash_of_mem_hexPair {byte : UInt8} {char : Char} (member : char ∈ hexPair byte) :
    (char != '-') = true := by
  have digit : ∀ value < 16, (Nat.digitChar value != '-') = true := by decide
  have bound := byte.toNat_lt
  rcases List.mem_cons.mp member with rfl | member
  · exact digit _ (by omega)
  · rw [List.mem_singleton.mp member]
    exact digit _ (by omega)

/-- Without its dashes a UUID is the digits of its bytes. -/
theorem filter_formatUuid (bits : BitVec 128) :
    (formatUuid bits).filter (· != '-') = (toBe 16 bits.toNat).flatMap hexPair := by
  have plain (bytes : List UInt8) : (bytes.flatMap hexPair).filter (· != '-') = bytes.flatMap hexPair := by
    refine List.filter_eq_self.mpr fun char member => ?_
    obtain ⟨byte, -, member⟩ := List.mem_flatMap.mp member
    exact not_dash_of_mem_hexPair member
  have length := length_toBe 16 bits.toNat
  rw [formatUuid]
  generalize toBe 16 bits.toNat = bytes at length
  have join (first last : Nat) (ordered : first ≤ last) :
      bytes.take first ++ (bytes.take last).drop first = bytes.take last := by
    have cut := List.take_append_drop first (bytes.take last)
    rwa [List.take_take, Nat.min_eq_left ordered] at cut
  have dash : ('-' != '-') = false := rfl
  simp only [List.filter_append, List.filter_cons, dash, Bool.false_eq_true, if_false, plain, ← List.flatMap_append,
    List.drop_zero, ← List.append_assoc]
  rw [join 4 6 (by decide), join 6 8 (by decide), join 8 10 (by decide), join 10 16 (by decide), ← length,
    List.take_length]

private theorem parseUuid_formatUuid (bits : BitVec 128) : parseUuid (.ofList (formatUuid bits)) = some bits := by
  have bound : bits.toNat < 256 ^ 16 := bits.isLt
  have length : ((toBe 16 bits.toNat).flatMap hexPair).length = 32 := by simp [hexPair, List.length_flatMap]
  rw [parseUuid, String.toList_ofList, filter_formatUuid]
  simp only [length, if_true, readDigits_hexPairs]
  rw [← bigEndian, bigEndian_toBe bound]
  simp

/-! ### Timestamps -/

section

variable {width : Nat} {number : Int} (notNegative : 0 ≤ number)

include notNegative

private theorem padInt_eq : padInt width number = pad width number.natAbs := if_neg (by omega)

private theorem readU32_padInt (small : number < 2 ^ 32) : readU32 (padInt width number) = some number := by
  have fits : (fun value => decide (value < 2 ^ 32)) number.natAbs = true := by
    rw [decide_eq_true_eq]
    omega
  rw [padInt_eq notNegative, readU32, readNat_pad, Option.filter_some, if_pos fits, Option.map_some]
  exact congrArg some (Int.natAbs_of_nonneg notNegative)

private theorem readI64_padInt (small : number < 2 ^ 63) : readI64 (padInt width number) = some number := by
  refine readI64_eq_some.mpr ⟨?_, by omega, small⟩
  rw [padInt_eq notNegative, readInt_of_readNat (readNat_pad width _), Int.natAbs_of_nonneg notNegative]

end

private theorem isDigit_of_mem_padInt (width : Nat) {number : Int} (notNegative : 0 ≤ number) :
    ∀ char ∈ padInt width number, char.isDigit = true := by
  rw [padInt_eq notNegative]
  exact fun char => isDigit_of_mem_pad

/-- A character that is no digit is not in a text of digits. -/
theorem not_mem_of_digits {text : List Char} (digits : ∀ char ∈ text, char.isDigit = true) {char : Char}
    (noDigit : char.isDigit = false) : char ∉ text := by
  intro member
  rw [digits char member] at noDigit
  cases noDigit

section

variable {micro : Int} (notNegative : 0 ≤ micro) (small : micro ≤ 999999)

include notNegative

private theorem isDigit_of_mem_fractionDigits : ∀ char ∈ fractionDigits micro, char.isDigit = true := fun char member =>
  isDigit_of_mem_padInt _ notNegative char ((List.rdropWhile_prefix _ _).subset member)

include small

private theorem fractionDigits_spec (notZero : micro ≠ 0) : fractionDigits micro ≠ [] ∧
    (fractionDigits micro).length ≤ 6 ∧
      ∃ value, readI64 (fractionDigits micro) = some value ∧ micro = value * 10 ^ (6 - (fractionDigits micro).length) := by
  have digits := readDigits_pad 6 micro.natAbs
  have length : (pad 6 micro.natAbs).length = 6 := length_pad (by decide) (by omega)
  rw [fractionDigits, padInt_eq notNegative]
  have shorter := (List.rdropWhile_prefix (· == '0') (pad 6 micro.natAbs)).length_le
  have notEmpty := rdropWhile_ne_nil digits (by omega)
  obtain ⟨value, isValue, same⟩ := readDigits_rdropWhile digits
  rw [length] at same shorter
  have atMost : value ≤ micro.natAbs := same ▸ Nat.le_mul_of_pos_right value (by positivity)
  refine ⟨notEmpty, shorter, value, readI64_eq_some.mpr ⟨?_, by omega, by omega⟩, ?_⟩
  · exact readInt_of_readNat (readNat_of_readDigits notEmpty isValue)
  · generalize (List.rdropWhile (· == '0') (pad 6 micro.natAbs)).length = length at same
    have cast : (micro.natAbs : Int) = ((value * 10 ^ (6 - length) : Nat) : Int) := congrArg Nat.cast same
    rw [Int.natAbs_of_nonneg notNegative] at cast
    exact_mod_cast cast

/-- The fraction has the value it is written for. -/
theorem fractionMicros_fractionDigits : Written.fractionMicros (fractionDigits micro) = some micro := by
  rw [Written.fractionMicros]
  by_cases zero : micro = 0
  · subst zero
    decide
  · obtain ⟨notEmpty, -, value, isValue, same⟩ := fractionDigits_spec notNegative small zero
    rw [if_neg notEmpty, isValue, Option.map_some, ← same]

end

section

variable {parts : Parts} (exist : parts.Exists)

include exist

private theorem readDate_formatDate (year : 0 ≤ parts.date.year) (fits : parts.date.year < 2 ^ 63) :
    readDate readU32 (formatDate parts) = some parts.date := by
  obtain ⟨⟨⟨firstMonth, lastMonth⟩, firstDay, lastDay⟩, -⟩ := exist
  have lastDay : parts.date.day ≤ 31 := le_trans lastDay (daysInMonth_bounds _ _).2
  have dash {width : Nat} {number : Int} (notNegative : 0 ≤ number) : '-' ∉ padInt width number :=
    not_mem_of_digits (isDigit_of_mem_padInt _ notNegative) (by decide)
  rw [readDate, formatDate, splitOn_triple (dash year) (dash (by omega)) (dash (by omega))]
  simp only [readI64_padInt year fits, readU32_padInt (show 0 ≤ parts.date.month by omega) (by omega),
    readU32_padInt (show 0 ≤ parts.date.day by omega) (by omega), Option.bind_eq_bind, Option.bind_some]
  exact if_pos ⟨firstMonth, lastMonth, firstDay, lastDay⟩

private theorem readClock_formatTime (date : Civil) (zone : Option (List Char)) :
    readClock date zone (formatTime parts ++ formatFraction parts.micro) =
      some ⟨date, parts.hour, parts.minute, parts.second, fractionDigits parts.micro, zone⟩ := by
  obtain ⟨-, ⟨hour, lastHour⟩, ⟨minute, lastMinute⟩, ⟨second, lastSecond⟩, micro, lastMicro⟩ := exist
  have colon {width : Nat} {number : Int} (notNegative : 0 ≤ number) : ':' ∉ padInt width number :=
    not_mem_of_digits (isDigit_of_mem_padInt _ notNegative) (by decide)
  have fraction : ':' ∉ padInt 2 parts.second ++ formatFraction parts.micro := by
    have digits : ':' ∉ fractionDigits parts.micro :=
      not_mem_of_digits (isDigit_of_mem_fractionDigits micro) (by decide)
    rw [formatFraction]
    split <;> simp [colon second, digits]
  have isTime : formatTime parts ++ formatFraction parts.micro = padInt 2 parts.hour ++ ':' ::
      (padInt 2 parts.minute ++ ':' :: (padInt 2 parts.second ++ formatFraction parts.micro)) := by
    simp [formatTime]
  have seconds : readSeconds (padInt 2 parts.second ++ formatFraction parts.micro) =
      some (parts.second, fractionDigits parts.micro) := by
    have noPoint : ∀ char ∈ padInt 2 parts.second, (char == '.') = false := by
      intro char member
      rw [beq_eq_false_iff_ne]
      rintro rfl
      exact not_mem_of_digits (isDigit_of_mem_padInt _ second) (by decide) member
    rw [readSeconds, formatFraction]
    by_cases zero : parts.micro = 0
    · have empty : fractionDigits 0 = [] := by decide
      rw [if_pos zero, List.append_nil, splitOnce_eq_none.mpr noPoint, zero, empty]
      simp [readI64_padInt second (show parts.second < 2 ^ 63 by omega)]
    · obtain ⟨-, short, value, isValue, -⟩ := fractionDigits_spec micro lastMicro zero
      have cut : splitOnce (· == '.') (padInt 2 parts.second ++ '.' :: fractionDigits parts.micro) =
          some (padInt 2 parts.second, fractionDigits parts.micro) :=
        splitOnce_eq_some.mpr ⟨'.', rfl, rfl, noPoint⟩
      rw [if_neg zero, cut]
      simp [readI64_padInt second (show parts.second < 2 ^ 63 by omega), List.take_of_length_le short, isValue]
  rw [readClock, isTime, splitOn_triple (colon hour) (colon minute) fraction]
  simp only [readI64_padInt hour (by omega), readI64_padInt minute (by omega), seconds, Option.bind_eq_bind,
    Option.bind_some]
  exact if_pos (withinDay_iff.mpr ⟨lastHour, lastMinute, by omega⟩)

private theorem readParts_format (year : 0 ≤ parts.date.year) (small : parts.date.year < 2 ^ 63) :
    readParts (formatDate parts) (formatTime parts ++ (formatFraction parts.micro ++ "+00".toList)) =
      some ⟨parts.date, parts.hour, parts.minute, parts.second, fractionDigits parts.micro, some "00".toList⟩ := by
  have clock := readClock_formatTime exist parts.date (some "00".toList)
  have digits : ∀ char ∈ formatTime parts ++ formatFraction parts.micro,
      char.isDigit = true ∨ char = ':' ∨ char = '.' := by
    obtain ⟨-, hour, minute, second, micro⟩ := exist
    have hours := isDigit_of_mem_padInt 2 hour.1
    have minutes := isDigit_of_mem_padInt 2 minute.1
    have seconds := isDigit_of_mem_padInt 2 second.1
    have fraction := isDigit_of_mem_fractionDigits micro.1
    rw [formatTime, formatFraction]
    grind
  have plus : splitOnce (· == '+') (formatTime parts ++ (formatFraction parts.micro ++ "+00".toList)) =
      some (formatTime parts ++ formatFraction parts.micro, "00".toList) := by
    refine splitOnce_eq_some.mpr ⟨'+', by simp, rfl, fun char member => ?_⟩
    rw [beq_eq_false_iff_ne]
    rintro rfl
    exact absurd (digits _ member) (by decide)
  have zulu : (formatTime parts ++ formatFraction parts.micro).rdropWhile (· == 'Z') =
      formatTime parts ++ formatFraction parts.micro := by
    refine rdropWhile_eq_self fun char member => ?_
    rw [beq_eq_false_iff_ne]
    rintro rfl
    exact absurd (digits _ member) (by decide)
  rw [readParts, readDate_formatDate exist year small, plus]
  simp only [Option.bind_eq_bind, Option.bind_some, zulu, clock]
  exact if_neg (by simp)

private theorem year_lt_of_fits (upper : parts.micros < 2 ^ 63) : parts.date.year < 2 ^ 63 := by
  obtain ⟨⟨month, day⟩, hour, minute, second, micro⟩ := exist
  simp only [Parts.micros] at upper
  have number : parts.date.dayNumber ≤ 107000000 := by omega
  have marchYear : parts.date.year - 1 ≤ parts.date.marchYear := by
    unfold Civil.marchYear
    omega
  unfold Civil.dayNumber daysBeforeYear daysBefore Civil.marchMonth at number
  omega

/-- What is written for an instant of a year from 0 on is read back. -/
theorem parseTimestamp_format (year : 0 ≤ parts.date.year) (fits : FitsI64 parts.micros) :
    parseTimestamp (.ofList (formatDate parts ++ ' ' ::
      (formatTime parts ++ (formatFraction parts.micro ++ "+00".toList)))) = .ok (some parts.micros) := by
  have small : parts.date.year < 2 ^ 63 := year_lt_of_fits exist fits.2
  have read := readParts_format exist year small
  have isParts : Written.parts ⟨parts.date, parts.hour, parts.minute, parts.second, fractionDigits parts.micro,
      some "00".toList⟩ = parts := by
    simp only [Written.parts, fractionMicros_fractionDigits exist.micro.1 exist.micro.2, Option.getD_some]
  have returned := parseParts_eq read (by rwa [isParts]) (by rwa [isParts])
  rw [isParts] at returned
  have dates : ∀ char ∈ formatDate parts, char.isDigit = true ∨ char = '-' := by
    have years := isDigit_of_mem_padInt 4 year
    have months := isDigit_of_mem_padInt 2 (show 0 ≤ parts.date.month by have := exist.date.month; omega)
    have days := isDigit_of_mem_padInt 2 (show 0 ≤ parts.date.day by have := exist.date.day; omega)
    rw [formatDate]
    grind
  have cut : splitOnce separatesTime (formatDate parts ++ ' ' ::
      (formatTime parts ++ (formatFraction parts.micro ++ "+00".toList))) =
      some (formatDate parts, formatTime parts ++ (formatFraction parts.micro ++ "+00".toList)) := by
    refine splitOnce_eq_some.mpr ⟨' ', rfl, rfl, fun char member => ?_⟩
    have notBlank : char ≠ ' ' := by
      rintro rfl
      exact absurd (dates _ member) (by decide)
    have notLetter : char ≠ 'T' := by
      rintro rfl
      exact absurd (dates _ member) (by decide)
    simp [separatesTime, notBlank, notLetter]
  have trimmed : trim (formatDate parts ++ ' ' :: (formatTime parts ++ (formatFraction parts.micro ++ "+00".toList))) =
      formatDate parts ++ ' ' :: (formatTime parts ++ (formatFraction parts.micro ++ "+00".toList)) := by
    obtain ⟨first, rest, isYear⟩ := List.exists_cons_of_ne_nil (pad_ne_nil 4 parts.date.year.natAbs)
    have digit : first.isDigit = true := isDigit_of_mem_pad (by rw [isYear]; exact List.mem_cons_self)
    have isText : formatDate parts ++ ' ' :: (formatTime parts ++ (formatFraction parts.micro ++ "+00".toList)) =
        first :: ((rest ++ '-' :: (padInt 2 parts.date.month ++ '-' :: padInt 2 parts.date.day) ++ ' ' ::
          (formatTime parts ++ (formatFraction parts.micro ++ ['+', '0']))) ++ ['0']) := by
      simp [formatDate, padInt_eq year, isYear]
    rw [isText]
    exact trim_eq _ (isWhitespace_of_isDigit digit) (by decide)
  rw [parseTimestamp, String.toList_ofList, trimmed, cut]
  exact returned

end

private theorem readDate_dash (number : List Char → Option Int) (text : List Char) : readDate number
    ('-' :: text) = none := by
  obtain ⟨part, parts, -, cut⟩ := splitOn_cons '-' '-' text
  rw [if_pos rfl] at cut
  rw [readDate, cut]
  match parts with
  | [] => rfl
  | [_] => rfl
  | _ :: _ :: _ => rfl

private theorem parseTimestamp_dash (text : List Char) : parseTimestamp (.ofList ('-' :: text)) = .ok none := by
  have trimmed : trim ('-' :: text) = '-' :: text.rdropWhile isWhitespace :=
    (rdropWhile_append_cons (by decide) : ([] ++ '-' :: text).rdropWhile isWhitespace = [] ++ '-' :: _)
  have dash (later : List Char) : splitOnce separatesTime ('-' :: later) =
      (splitOnce separatesTime later).map (Prod.map ('-' :: ·) id) := rfl
  rw [parseTimestamp, String.toList_ofList, trimmed, dash]
  cases splitOnce separatesTime (text.rdropWhile isWhitespace) with
  | none => rfl
  | some parts =>
    change parseParts ('-' :: parts.1) parts.2 = _
    rw [parseParts, readParts, readDate_dash]
    rfl

/-- A negative year is written with a sign, which is read as a separator. -/
theorem parseTimestamp_negative {parts : Parts} (year : parts.date.year < 0) (later : List Char) :
    parseTimestamp (.ofList (formatDate parts ++ later)) = .ok none := by
  rw [formatDate, padInt, if_pos year]
  exact parseTimestamp_dash _

/-- The year of an instant is negative before the first day of the year 0. -/
theorem year_nonneg_iff (micros : Int) : 0 ≤ (Parts.ofMicros micros).date.year ↔ -62167219200000000 ≤ micros := by
  have exist := (Parts.exists_ofMicros micros).date
  have number : (Parts.ofMicros micros).date.dayNumber = micros / 86400000000 := dayNumber_civilOf _
  generalize (Parts.ofMicros micros).date = date at exist number
  obtain ⟨month, day⟩ := exist
  have lastDay : date.day ≤ 31 := le_trans day.2 (daysInMonth_bounds _ _).2
  unfold Civil.dayNumber daysBeforeYear daysBefore Civil.marchMonth Civil.marchYear at number
  split at number <;> omega

/-! ## The round trip -/

/-- The instants a format keeps: with text those from the year 0 on, in binary those that are not
too early for the epoch of PostgreSQL. Every other value is kept. -/
def Kept : Format → Value → Prop
  | .text, .timestamp micros => -62167219200000000 ≤ micros.toInt
  | .binary, .timestamp micros => -2 ^ 63 + pgEpochOffset ≤ micros.toInt
  | _, _ => True

section

variable (formats : TextFormats)

private theorem decodeText_eq (dataType : DataType) (text : String) : decodeText formats dataType (asBytes text) =
      match dataType with
      | .boolean => readLiteral "boolean" text (readBoolean text)
      | .int4 => readLiteral "int4" text ((readSized 32 text).map fun value => .int4 (Int32.ofInt value))
      | .int8 => readLiteral "int8" text ((readSized 64 text).map fun value => .int8 (Int64.ofInt value))
      | .float8 => readLiteral "float8" text ((formats.readFloat text).map Value.float8)
      | .text => .ok (.text text)
      | .timestamp => readLiteral "timestamp" text ((formats.parseTimestamp text).toOption.map Value.timestamp)
      | .uuid => readLiteral "uuid" text ((parseUuid text).map Value.uuid)
      | .json => .ok (.json text) := by
  rw [decodeText, fromUtf8_asBytes]
  rfl

/-- As text an instant is kept from the year 0 on. -/
theorem decodeText_timestamp (micros : Int64) : ∃ text, formatTimestamp micros.toInt = .ok text ∧
      (decodeText (wireFormats formats) .timestamp (asBytes (.ofList text)) = .ok (.timestamp micros) ↔
        -62167219200000000 ≤ micros.toInt) := by
  have lower := micros.le_toInt
  have upper := micros.toInt_lt
  have exist := Parts.exists_ofMicros micros.toInt
  have isMicros := Parts.micros_ofMicros micros.toInt
  rw [formatTimestamp, partsFromMicros_eq (by omega) (by omega)]
  refine ⟨_, rfl, ?_⟩
  rw [decodeText_eq, ← year_nonneg_iff]
  simp only [readLiteral_eq_ok, wireFormats]
  by_cases year : 0 ≤ (Parts.ofMicros micros.toInt).date.year
  · rw [parseTimestamp_format exist year (by rw [isMicros]; exact ⟨lower, by omega⟩), isMicros]
    simp [year, Except.toOption]
  · rw [parseTimestamp_negative (by omega)]
    simp [year, Except.toOption]

private theorem ofNat_toUInt64 (value : Int64) : Int64.ofNat value.toUInt64.toNat = value := by
  rw [← Int64.toBitVec_inj]
  simp

private theorem ofNat_toUInt32 (value : Int32) : Int32.ofNat value.toUInt32.toNat = value := by
  rw [← Int32.toBitVec_inj]
  simp

/-- In binary an instant is kept unless the other epoch puts it out of range. -/
theorem decodeBinary_timestamp (micros : Int64) :
    decodeBinary .timestamp (encodeBinary (.timestamp micros)) = .ok (.timestamp micros) ↔
      -2 ^ 63 + pgEpochOffset ≤ micros.toInt := by
  have lower := micros.le_toInt
  have upper := micros.toInt_lt
  rw [decodeBinary, encodeBinary, sized, if_pos (length_toBe 8 _), bigEndian_toBe (UInt64.toNat_lt _)]
  simp only [Except.ok.injEq, Value.timestamp.injEq, ofNat_toUInt64]
  have shifted : (saturatingSub micros pgEpochOffset).toInt =
      max (-(2 ^ 63 : Int)) (min (2 ^ 63 - 1) (micros.toInt - pgEpochOffset)) :=
    Int64.toInt_ofInt_of_le (by omega) (by omega)
  have back : (saturatingAdd (saturatingSub micros pgEpochOffset) pgEpochOffset).toInt =
      max (-(2 ^ 63 : Int)) (min (2 ^ 63 - 1) ((saturatingSub micros pgEpochOffset).toInt + pgEpochOffset)) :=
    Int64.toInt_ofInt_of_le (by omega) (by omega)
  rw [← Int64.toInt_inj, back, shifted, pgEpochOffset]
  omega

theorem decodeBinary_encodeBinary {value : Value} {dataType : DataType} (isType : value.dataType = some dataType)
    (noInstant : dataType ≠ .timestamp) : decodeBinary dataType (encodeBinary value) = .ok value := by
  cases value with
  | null => cases isType
  | boolean value =>
    cases isType
    cases value <;> rfl
  | int4 value =>
    cases isType
    rw [decodeBinary, encodeBinary, sized, if_pos (length_toBe 4 _), bigEndian_toBe (UInt32.toNat_lt _), ofNat_toUInt32]
  | int8 value =>
    cases isType
    rw [decodeBinary, encodeBinary, sized, if_pos (length_toBe 8 _), bigEndian_toBe (UInt64.toNat_lt _), ofNat_toUInt64]
  | float8 bits =>
    cases isType
    rw [decodeBinary, encodeBinary, sized, if_pos (length_toBe 8 _), bigEndian_toBe (UInt64.toNat_lt _)]
    simp
  | text value =>
    cases isType
    rw [decodeBinary, encodeBinary, fromUtf8_asBytes]
    rfl
  | timestamp micros =>
    cases isType
    exact absurd rfl noInstant
  | uuid value =>
    cases isType
    rw [decodeBinary, encodeBinary, sized, if_pos (length_toBe 16 _), bigEndian_toBe value.isLt]
    simp
  | json value =>
    cases isType
    rw [decodeBinary, encodeBinary, fromUtf8_asBytes]
    rfl

/-- Every other value but a float is kept as text. -/
theorem decodeText_encodeText {value : Value} {dataType : DataType} (isType : value.dataType = some dataType)
    (noInstant : dataType ≠ .timestamp) (noFloat : dataType ≠ .float8) : ∃ text, encodeText formats value = .ok text ∧
      decodeText (wireFormats formats) dataType (asBytes text) = .ok value := by
  cases value with
  | null => cases isType
  | boolean value =>
    cases isType
    refine ⟨_, rfl, ?_⟩
    rw [decodeText_eq]
    cases value <;> rfl
  | int4 value =>
    cases isType
    refine ⟨_, rfl, ?_⟩
    rw [decodeText_eq, readLiteral_eq_ok, readSized_writeInt value.le_toInt value.toInt_lt]
    simp
  | int8 value =>
    cases isType
    refine ⟨_, rfl, ?_⟩
    rw [decodeText_eq, readLiteral_eq_ok, readSized_writeInt value.le_toInt value.toInt_lt]
    simp
  | float8 bits =>
    cases isType
    exact absurd rfl noFloat
  | text value =>
    cases isType
    exact ⟨value, rfl, decodeText_eq _ _ _⟩
  | timestamp micros =>
    cases isType
    exact absurd rfl noInstant
  | uuid value =>
    cases isType
    refine ⟨_, rfl, ?_⟩
    rw [decodeText_eq, readLiteral_eq_ok, parseUuid_formatUuid]
    rfl
  | json value =>
    cases isType
    exact ⟨value, rfl, decodeText_eq _ _ _⟩

/-- A value that is neither `NULL` nor a float is read back from what is sent for it, exactly if it
is no instant the format cannot keep. -/
theorem decodeValue_encodeValue (format : Format) (value : Value) (dataType : DataType)
    (isType : value.dataType = some dataType) (noFloat : dataType ≠ .float8) :
    ∃ raw, encodeValue formats value format = .ok raw ∧
      (decodeValue (wireFormats formats) dataType format raw = .ok value ↔ Kept format value) := by
  have notNull : ¬value.isNull = true := by
    intro isNull
    cases value <;> cases isNull
    cases isType
  unfold encodeValue
  rw [if_neg notNull]
  by_cases isInstant : ∃ micros, value = .timestamp micros
  · obtain ⟨micros, rfl⟩ := isInstant
    cases isType
    cases format with
    | text =>
      obtain ⟨text, written, read⟩ := decodeText_timestamp formats micros
      exact ⟨_, congrArg (Except.map _) (congrArg (Except.map String.ofList) written), read⟩
    | binary => exact ⟨_, rfl, decodeBinary_timestamp micros⟩
  · have kept : Kept format value := by
      cases value <;> cases format
      case timestamp.text micros | timestamp.binary micros => exact absurd ⟨micros, rfl⟩ isInstant
      all_goals exact trivial
    have noInstant : dataType ≠ .timestamp := by
      rintro rfl
      cases value <;> cases isType
      exact isInstant ⟨_, rfl⟩
    cases format with
    | text =>
      obtain ⟨text, written, read⟩ := decodeText_encodeText formats isType noInstant noFloat
      exact ⟨_, congrArg (Except.map _) written, iff_of_true read kept⟩
    | binary => exact ⟨_, rfl, iff_of_true (decodeBinary_encodeBinary isType noInstant) kept⟩

end

/-- A leap day in both formats. -/
theorem decodeValue_leap_day : (∃ raw, encodeValue .decimal (.timestamp 1709210096789000) .text = .ok raw ∧
      decodeValue (wireFormats .decimal) .timestamp .text raw = .ok (.timestamp 1709210096789000)) ∧
      ∃ raw, encodeValue .decimal (.timestamp 1709210096789000) .binary = .ok raw ∧
        decodeValue (wireFormats .decimal) .timestamp .binary raw = .ok (.timestamp 1709210096789000) := by
  have text := decodeValue_encodeValue .decimal .text (.timestamp 1709210096789000) .timestamp rfl (by decide)
  have binary := decodeValue_encodeValue .decimal .binary (.timestamp 1709210096789000) .timestamp rfl (by decide)
  have keptText : Kept .text (.timestamp 1709210096789000) := by
    change (-62167219200000000 : Int) ≤ (1709210096789000 : Int64).toInt
    decide
  have keptBinary : Kept .binary (.timestamp 1709210096789000) := by
    change -2 ^ 63 + pgEpochOffset ≤ (1709210096789000 : Int64).toInt
    decide
  obtain ⟨raw, written, read⟩ := text
  obtain ⟨other, otherWritten, otherRead⟩ := binary
  exact ⟨⟨raw, written, read.mpr keptText⟩, other, otherWritten, otherRead.mpr keptBinary⟩

/-- The last microsecond before the year 0 is written with a negative year, and refused. -/
theorem decodeValue_before_year_zero : encodeValue .decimal (.timestamp (-62167219200000001)) .text =
        .ok (some (asBytes "-001-12-31 23:59:59.999999+00")) ∧
      (decodeValue (wireFormats .decimal) .timestamp .text
        (some (asBytes "-001-12-31 23:59:59.999999+00"))).toOption = none := by
  decide +kernel

end Ferrite.Protocol
