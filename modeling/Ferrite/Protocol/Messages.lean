import Ferrite.Logical.BigEndian
import Ferrite.Logical.Coded
import Ferrite.Logical.Fallible
import Ferrite.Protocol.Wire
import Ferrite.Storage.Codec

/-!
# The encoding of messages

What a frontend message looks like in version 3 of the protocol. `Frontend::decode` reads every
message back from its encoding, and accepts nothing but encodings.
-/

namespace Ferrite.Protocol

open Logical Reader
open Storage.Codec (asBytes fromUTF8_asBytes)

/-! ## Atoms -/

/-- A signed number of 16 bits. -/
def be16 (value : Int) : Octets := toBe 2 (Int16.ofInt value).toUInt16.toNat

/-- A signed number of 32 bits. -/
def be32 (value : Int) : Octets := toBe 4 (Int32.ofInt value).toUInt32.toNat

/-- A string and a zero byte. -/
def cString (text : String) : Octets := asBytes text ++ [0]

/-- No zero byte stands in the string. -/
def NulFree (text : String) : Prop := (0 : UInt8) ∉ asBytes text

instance (text : String) : Decidable (NulFree text) := inferInstanceAs (Decidable ((0 : UInt8) ∉ asBytes text))

def Format.code : Format → Int
  | .text => 0
  | .binary => 1

def encodeFormats (formats : List Format) : Octets := be16 formats.length ++ formats.flatMap fun format => be16 format.code

/-- The length of a payload; no payload has the length -1. -/
def payloadLength (payload : Option Octets) : Int := payload.elim (-1) fun bytes => (bytes.length : Int)

def encodeNullable (payload : Option Octets) : Octets := be32 (payloadLength payload) ++ payload.getD []

def TargetKind.byte : TargetKind → Nat
  | .statement => 83
  | .portal => 80

namespace Wire

variable {width : Nat} {bytes : Octets}

theorem coded_takeBytes (count : Nat) : Coded (takeBytes count) id (fun taken => taken.length = count) where
  reads taken exact more := by
    have looked : remaining.run ⟨taken ++ more⟩ = .ok ((taken ++ more).length, ⟨taken ++ more⟩) := rfl
    rw [takeBytes, id, run_bind_ok looked]
    exact reads_take exact more
  takes := by
    intro input rest taken ran
    obtain ⟨left, middle, looked, ran⟩ := bind_run_eq_ok.mp ran
    cases looked
    exact (coded_take _ count).takes ran

private theorem ofBe_toBe {value : Nat} (fits : value < 256 ^ width) : ofBe (toBe width value) = value :=
  ofLe_reverse_toBe fits

private theorem toBe_ofBe (length : bytes.length = width) : toBe width (ofBe bytes) = bytes := by
  subst length
  exact toBe_ofLe_reverse bytes

private theorem ofBe_lt (length : bytes.length = width) : ofBe bytes < 256 ^ width := by
  have small := ofLe_lt bytes.reverse
  rwa [List.length_reverse, length] at small

theorem coded_u8 : Coded u8 (toBe 1) (fun value => value < 256) := by
  refine (coded_takeBytes 1).refine (toBe 1) ?_ ?_
  · intro value isValid
    exact ⟨length_toBe 1 value, by rw [ofBe_toBe (by omega)]⟩
  · intro bytes input rest value length ran
    cases ran
    exact ⟨ofBe_lt length, toBe_ofBe length, rfl⟩

theorem coded_i16 : Coded i16 be16 (fun value => -2 ^ 15 ≤ value ∧ value < 2 ^ 15) := by
  refine (coded_takeBytes 2).refine be16 ?_ ?_
  · intro value isValid
    refine ⟨length_toBe 2 _, ?_⟩
    rw [be16, ofBe_toBe (UInt16.toNat_lt _), UInt16.ofNat_toNat, Int16.toInt16_toUInt16,
      Int16.toInt_ofInt_of_le isValid.1 isValid.2]
  · intro bytes input rest value length ran
    cases ran
    refine ⟨⟨Int16.le_toInt _, Int16.toInt_lt _⟩, ?_, rfl⟩
    rw [be16, Int16.ofInt_toInt, UInt16.toUInt16_toInt16, UInt16.toNat_ofNat_of_lt' (ofBe_lt length), toBe_ofBe length]

theorem coded_i32 : Coded i32 be32 (fun value => -2 ^ 31 ≤ value ∧ value < 2 ^ 31) := by
  refine (coded_takeBytes 4).refine be32 ?_ ?_
  · intro value isValid
    refine ⟨length_toBe 4 _, ?_⟩
    rw [be32, ofBe_toBe (UInt32.toNat_lt _), UInt32.ofNat_toNat, Int32.toInt32_toUInt32,
      Int32.toInt_ofInt_of_le isValid.1 isValid.2]
  · intro bytes input rest value length ran
    cases ran
    refine ⟨⟨Int32.le_toInt _, Int32.toInt_lt _⟩, ?_, rfl⟩
    rw [be32, Int32.ofInt_toInt, UInt32.toUInt32_toInt32, UInt32.toNat_ofNat_of_lt' (ofBe_lt length), toBe_ofBe length]

theorem coded_count : Coded count (fun number => be16 (number : Int)) (fun number => number < 2 ^ 15) := by
  refine coded_i16.refine Nat.cast ?_ ?_
  · intro number isValid
    refine ⟨by omega, ?_⟩
    rw [if_neg (by omega), Int.toNat_natCast]
  · intro value input rest number isValid ran
    split at ran
    · cases ran
    · cases ran
      exact ⟨by omega, by omega, rfl⟩

theorem coded_format : Coded format (fun format => be16 format.code) (fun _ => True) := by
  refine coded_i16.refine Format.code ?_ ?_
  · intro format _
    cases format <;> exact ⟨by decide, rfl⟩
  · intro value input rest format isValid ran
    split at ran
    · rename_i isText
      cases ran
      exact ⟨trivial, isText.symm, rfl⟩
    · split at ran
      · rename_i isBinary
        cases ran
        exact ⟨trivial, isBinary.symm, rfl⟩
      · cases ran

private theorem coded_formats : Coded formats encodeFormats (fun formats => formats.length < 2 ^ 15 ∧ ∀ format ∈ formats, True) :=
  coded_count.counted coded_format

private theorem coded_targetKind : Coded targetKind (fun kind => toBe 1 kind.byte) (fun _ => True) := by
  refine coded_u8.refine TargetKind.byte ?_ ?_
  · intro kind _
    cases kind <;> exact ⟨by decide, rfl⟩
  · intro value input rest kind isValid ran
    split at ran
    · rename_i isStatement
      cases ran
      exact ⟨trivial, isStatement.symm, rfl⟩
    · split at ran
      · rename_i isPortal
        cases ran
        exact ⟨trivial, isPortal.symm, rfl⟩
      · cases ran

theorem coded_nullableBytes :
    Coded nullableBytes encodeNullable (fun payload => ∀ bytes ∈ payload, bytes.length < 2 ^ 31) := by
  refine coded_i32.bind payloadLength ?_ ?_
  · intro payload isValid
    cases payload with
    | none => exact ⟨by decide, reads_pure none⟩
    | some bytes =>
      have short := isValid bytes rfl
      have isLength : payloadLength (some bytes) = bytes.length := rfl
      refine ⟨by omega, ?_⟩
      rw [if_neg (by omega), if_neg (by omega), isLength, Int.toNat_natCast]
      exact ((coded_takeBytes bytes.length).reads rfl).map
  · intro value input rest payload isValid ran
    split at ran
    · rename_i isNone
      cases ran
      exact ⟨nofun, isNone.symm, rfl⟩
    · split at ran
      · cases ran
      · obtain ⟨bytes, middle, ranTake, ranPure⟩ := bind_run_eq_ok.mp ran
        cases ranPure
        obtain ⟨length, taken⟩ := (coded_takeBytes _).takes ranTake
        refine ⟨?_, ?_, taken⟩
        · rintro other ⟨⟩
          omega
        · simp only [payloadLength, Option.elim_some, length]
          omega

private theorem takeWhile_nul (nulFree : (0 : UInt8) ∉ bytes) (more : Octets) :
    (bytes ++ 0 :: more).takeWhile (· ≠ 0) = bytes := by
  rw [List.takeWhile_append_of_pos fun byte member => by
    simp only [ne_eq, decide_not, Bool.not_eq_eq_eq_not, Bool.not_true, decide_eq_false_iff_not]
    rintro rfl
    exact nulFree member]
  simp

private theorem asBytes_of_fromUTF8 {text : String} (made : String.fromUTF8? ⟨bytes.toArray⟩ = some text) :
    asBytes text = bytes := by
  unfold String.fromUTF8? at made
  split at made
  · cases made
    exact List.toList_toArray
  · cases made

theorem coded_cstr : Coded cstr cString NulFree where
  reads text nulFree more := by
    have isText : cString text ++ more = asBytes text ++ 0 :: more := by simp [cString]
    have looked : untilNul.run ⟨asBytes text ++ 0 :: more⟩ = .ok (some (asBytes text), ⟨asBytes text ++ 0 :: more⟩) := by
      rw [untilNul, run_look, if_pos (by simp), takeWhile_nul nulFree]
    have skipped : Buffer.skip ((asBytes text).length + 1) ⟨asBytes text ++ 0 :: more⟩ = ⟨more⟩ := by
      simp [Buffer.skip, List.drop_append]
    rw [cstr, isText, run_bind_ok looked]
    simp only
    rw [run_bind_ok (run_move _ _ _), skipped, fromUTF8_asBytes]
    rfl
  takes := by
    rintro ⟨input⟩ rest text ran
    obtain ⟨found, middle, looked, ran⟩ := bind_run_eq_ok.mp ran
    rw [untilNul, run_look] at looked
    cases looked
    by_cases member : (0 : UInt8) ∈ input
    · obtain ⟨bytes, later, rfl, free⟩ := List.eq_append_cons_of_mem member
      rw [if_pos member, takeWhile_nul free] at ran
      obtain ⟨_, moved, ranMove, ran⟩ := bind_run_eq_ok.mp ran
      cases ranMove
      split at ran
      · rename_i text isText
        cases ran
        have same := asBytes_of_fromUTF8 isText
        refine ⟨by rw [NulFree, same]; exact free, ?_⟩
        simp [cString, same, Buffer.skip, List.drop_append]
      · cases ran
    · rw [if_neg member] at ran
      cases ran

end Wire

/-! ## Messages -/

namespace WireMessage

open Wire

/-- The tag a message is sent with. -/
def tag : WireMessage → Nat
  | .query _ => 81
  | .parse _ _ _ => 80
  | .bind _ _ _ _ _ => 66
  | .describe _ _ => 68
  | .execute _ _ => 69
  | .close _ _ => 67
  | .sync => 83
  | .flush => 72
  | .terminate => 88
  | .password _ => 112
  | .unsupported tag => tag

/-- The body of a message in version 3 of the protocol. -/
def encode : WireMessage → Octets
  | .query sql => cString sql
  | .parse name sql paramTypes => cString name ++ (cString sql ++ (be16 paramTypes.length ++ paramTypes.flatMap be32))
  | .bind portal statement paramFormats params resultFormats =>
    cString portal ++ (cString statement ++ (encodeFormats paramFormats ++
      (be16 params.length ++ (params.flatMap encodeNullable ++ encodeFormats resultFormats))))
  | .describe kind name => toBe 1 kind.byte ++ cString name
  | .execute portal maxRows => cString portal ++ be32 maxRows
  | .close kind name => toBe 1 kind.byte ++ cString name
  | .sync | .flush | .terminate => []
  | .password raw => raw
  | .unsupported _ => []

/-- What a client can send: lists are counted in 15 bits, strings end with a zero byte, lengths are
counted in 31 bits, and a row limit is not negative. The numbers of types are 32-bit integers. -/
def Valid : WireMessage → Prop
  | .query sql => NulFree sql
  | .parse name sql paramTypes =>
    NulFree name ∧ NulFree sql ∧ paramTypes.length < 2 ^ 15 ∧
      ∀ paramType ∈ paramTypes, -2 ^ 31 ≤ paramType ∧ paramType < 2 ^ 31
  | .bind portal statement paramFormats params resultFormats =>
    NulFree portal ∧ NulFree statement ∧ paramFormats.length < 2 ^ 15 ∧
      (params.length < 2 ^ 15 ∧ ∀ payload ∈ params, ∀ bytes ∈ payload, bytes.length < 2 ^ 31) ∧
      resultFormats.length < 2 ^ 15
  | .describe _ name | .close _ name => NulFree name
  | .execute portal maxRows => NulFree portal ∧ 0 ≤ maxRows ∧ maxRows < 2 ^ 31
  | .sync | .flush | .terminate => True
  | .password _ | .unsupported _ => False

/-- `Frontend::decode`. -/
def decode (tag : Nat) (body : Octets) : Except WireError WireMessage := Prod.fst <$> (decodeBody tag).run ⟨body⟩

def decodedTags : List Nat := [81, 80, 66, 68, 69, 67, 83, 72, 88]

variable {message : WireMessage} {rest : Buffer UInt8}

private theorem reads_decoder (valid : message.Valid) :
    ∃ decoder, decodeBody message.tag = whole decoder ∧ Reads decoder message.encode message := by
  cases message with
  | query sql => exact ⟨_, rfl, (coded_cstr.reads valid).map⟩
  | parse name sql paramTypes =>
    obtain ⟨name, sql, few, types⟩ := valid
    exact ⟨_, rfl, (coded_cstr.reads name).bind ((coded_cstr.reads sql).bind
      ((coded_count.reads few).bind ((coded_times coded_i32 _).reads ⟨rfl, types⟩).map))⟩
  | bind portal statement paramFormats params resultFormats =>
    obtain ⟨portal, statement, paramFormats, ⟨few, params⟩, resultFormats⟩ := valid
    exact ⟨_, rfl, (coded_cstr.reads portal).bind ((coded_cstr.reads statement).bind
      ((coded_formats.reads ⟨paramFormats, fun _ _ => trivial⟩).bind ((coded_count.reads few).bind
        (((coded_times coded_nullableBytes _).reads ⟨rfl, params⟩).bind
          (coded_formats.reads ⟨resultFormats, fun _ _ => trivial⟩).map))))⟩
  | describe kind name => exact ⟨_, rfl, (coded_targetKind.reads trivial).bind (coded_cstr.reads valid).map⟩
  | execute portal maxRows =>
    obtain ⟨portal, notNegative, small⟩ := valid
    refine ⟨_, rfl, (coded_cstr.reads portal).bind ?_⟩
    have limit := coded_i32.reads ⟨by omega, small⟩
    intro more
    rw [run_bind_ok (limit more), if_neg (by omega)]
    rfl
  | close kind name => exact ⟨_, rfl, (coded_targetKind.reads trivial).bind (coded_cstr.reads valid).map⟩
  | sync => exact ⟨_, rfl, reads_pure _⟩
  | flush => exact ⟨_, rfl, reads_pure _⟩
  | terminate => exact ⟨_, rfl, reads_pure _⟩
  | password raw => exact absurd valid id
  | unsupported tag => exact absurd valid id

theorem run_finish_nil : finish.run ⟨[]⟩ = .ok ((), ⟨[]⟩) := rfl

theorem run_finish {input : Buffer UInt8} {result : Unit} (ran : finish.run input = .ok (result, rest)) :
    input.rest = [] := by
  obtain ⟨left, middle, looked, ran⟩ := bind_run_eq_ok.mp ran
  cases looked
  split at ran
  · rename_i none
    exact List.eq_nil_of_length_eq_zero none
  · cases ran

private theorem decode_encode (valid : message.Valid) : decode message.tag message.encode = .ok message := by
  obtain ⟨decoder, isDecoder, reads⟩ := reads_decoder valid
  have ran := reads []
  rw [List.append_nil] at ran
  rw [decode, isDecoder, whole, run_bind_ok ran, run_bind_ok run_finish_nil]
  rfl

/-- All a decoder takes is the encoding of the message it gives, which has that tag. -/
def Takes (tag : Nat) (decoder : Wire WireMessage) : Prop :=
  ∀ ⦃input rest message⦄, decoder.run input = .ok (message, rest) →
    message.Valid ∧ tag = message.tag ∧ input.rest = message.encode ++ rest.rest

private theorem takes_query : Takes 81 decodeQuery := by
  intro input rest message ran
  obtain ⟨sql, middle, ranSql, ranPure⟩ := bind_run_eq_ok.mp ran
  cases ranPure
  obtain ⟨valid, taken⟩ := coded_cstr.takes ranSql
  exact ⟨valid, rfl, taken⟩

private theorem takes_parse : Takes 80 decodeParse := by
  intro input rest message ran
  obtain ⟨name, afterName, ranName, ran⟩ := bind_run_eq_ok.mp ran
  obtain ⟨sql, afterSql, ranSql, ran⟩ := bind_run_eq_ok.mp ran
  obtain ⟨number, afterCount, ranCount, ran⟩ := bind_run_eq_ok.mp ran
  obtain ⟨paramTypes, afterTypes, ranTypes, ranPure⟩ := bind_run_eq_ok.mp ran
  cases ranPure
  obtain ⟨validName, takenName⟩ := coded_cstr.takes ranName
  obtain ⟨validSql, takenSql⟩ := coded_cstr.takes ranSql
  obtain ⟨few, takenCount⟩ := coded_count.takes ranCount
  obtain ⟨⟨rfl, validTypes⟩, takenTypes⟩ := (coded_times coded_i32 _).takes ranTypes
  refine ⟨⟨validName, validSql, few, validTypes⟩, rfl, ?_⟩
  rw [takenName, takenSql, takenCount, takenTypes]
  simp [encode]

private theorem takes_bind : Takes 66 decodeBind := by
  intro input rest message ran
  obtain ⟨portal, afterPortal, ranPortal, ran⟩ := bind_run_eq_ok.mp ran
  obtain ⟨statement, afterStatement, ranStatement, ran⟩ := bind_run_eq_ok.mp ran
  obtain ⟨paramFormats, afterFormats, ranFormats, ran⟩ := bind_run_eq_ok.mp ran
  obtain ⟨number, afterCount, ranCount, ran⟩ := bind_run_eq_ok.mp ran
  obtain ⟨params, afterParams, ranParams, ran⟩ := bind_run_eq_ok.mp ran
  obtain ⟨resultFormats, afterResults, ranResults, ranPure⟩ := bind_run_eq_ok.mp ran
  cases ranPure
  obtain ⟨validPortal, takenPortal⟩ := coded_cstr.takes ranPortal
  obtain ⟨validStatement, takenStatement⟩ := coded_cstr.takes ranStatement
  obtain ⟨⟨fewFormats, -⟩, takenFormats⟩ := coded_formats.takes ranFormats
  obtain ⟨few, takenCount⟩ := coded_count.takes ranCount
  obtain ⟨⟨rfl, validParams⟩, takenParams⟩ := (coded_times coded_nullableBytes _).takes ranParams
  obtain ⟨⟨fewResults, -⟩, takenResults⟩ := coded_formats.takes ranResults
  refine ⟨⟨validPortal, validStatement, fewFormats, ⟨few, validParams⟩, fewResults⟩, rfl, ?_⟩
  rw [takenPortal, takenStatement, takenFormats, takenCount, takenParams, takenResults]
  simp [encode]

private theorem takes_execute : Takes 69 decodeExecute := by
  intro input rest message ran
  obtain ⟨portal, afterPortal, ranPortal, ran⟩ := bind_run_eq_ok.mp ran
  obtain ⟨maxRows, afterLimit, ranLimit, ran⟩ := bind_run_eq_ok.mp ran
  obtain ⟨validPortal, takenPortal⟩ := coded_cstr.takes ranPortal
  obtain ⟨⟨-, small⟩, takenLimit⟩ := coded_i32.takes ranLimit
  split at ran
  · cases ran
  · rename_i notNegative
    cases ran
    refine ⟨⟨validPortal, by omega, small⟩, rfl, ?_⟩
    rw [takenPortal, takenLimit]
    simp [encode]

/-- A message about a statement or a portal. -/
theorem takes_target {tag : Nat} {make : TargetKind → String → WireMessage}
    (isTag : ∀ kind name, tag = (make kind name).tag) (isValid : ∀ kind name, NulFree name → (make kind name).Valid)
    (isEncoded : ∀ kind name, (make kind name).encode = toBe 1 kind.byte ++ cString name) :
    Takes tag (do
      let kind ← targetKind
      let name ← cstr
      pure (make kind name)) := by
  intro input rest message ran
  obtain ⟨kind, afterKind, ranKind, ran⟩ := bind_run_eq_ok.mp ran
  obtain ⟨name, afterName, ranName, ranPure⟩ := bind_run_eq_ok.mp ran
  cases ranPure
  obtain ⟨-, takenKind⟩ := coded_targetKind.takes ranKind
  obtain ⟨valid, takenName⟩ := coded_cstr.takes ranName
  refine ⟨isValid kind name valid, isTag kind name, ?_⟩
  rw [takenKind, takenName, isEncoded, List.append_assoc]

private theorem takes_describe : Takes 68 decodeDescribe :=
  takes_target (fun _ _ => rfl) (fun _ _ valid => valid) (fun _ _ => rfl)

private theorem takes_close : Takes 67 decodeClose := takes_target (fun _ _ => rfl) (fun _ _ valid => valid)
    (fun _ _ => rfl)

private theorem takes_pure (valid : message.Valid) (empty : message.encode = []) : Takes message.tag (pure message)
    := by
  intro input rest result ran
  cases ran
  exact ⟨valid, rfl, by rw [empty, List.nil_append]⟩

/-- With nothing left over, the encoding is the whole body. -/
theorem Takes.whole {tag : Nat} {decoder : Wire WireMessage} (takes : Takes tag decoder) {body : Octets}
    (ran : (whole decoder).run ⟨body⟩ = .ok (message, rest)) :
    message.Valid ∧ tag = message.tag ∧ body = message.encode := by
  obtain ⟨result, middle, ranDecoder, ran⟩ := bind_run_eq_ok.mp ran
  obtain ⟨_, last, ranFinish, ranPure⟩ := bind_run_eq_ok.mp ran
  cases ranPure
  obtain ⟨valid, sameTag, taken⟩ := takes ranDecoder
  rw [run_finish ranFinish, List.append_nil] at taken
  exact ⟨valid, sameTag, taken⟩

private theorem takes_decodeBody {tag : Nat} (decoded : tag ∈ decodedTags) {body : Octets}
    (ran : (decodeBody tag).run ⟨body⟩ = .ok (message, rest)) :
    message.Valid ∧ tag = message.tag ∧ body = message.encode := by
  simp only [decodedTags, List.mem_cons, List.not_mem_nil, or_false] at decoded
  rcases decoded with rfl | rfl | rfl | rfl | rfl | rfl | rfl | rfl | rfl
  · exact takes_query.whole ran
  · exact takes_parse.whole ran
  · exact takes_bind.whole ran
  · exact takes_describe.whole ran
  · exact takes_execute.whole ran
  · exact takes_close.whole ran
  · exact Takes.whole (takes_pure trivial rfl : Takes (tag .sync) _) ran
  · exact Takes.whole (takes_pure trivial rfl : Takes (tag .flush) _) ran
  · exact Takes.whole (takes_pure trivial rfl : Takes (tag .terminate) _) ran

/-- Decoding is exact: it gives back what was encoded, it accepts only encodings, and no two bodies are
decoded to the same message. -/
theorem decode_exact : (∀ message : WireMessage, message.Valid → decode message.tag message.encode = .ok message) ∧
      (∀ tag ∈ decodedTags, ∀ body message, decode tag body = .ok message →
        message.Valid ∧ tag = message.tag ∧ body = message.encode) ∧
      ∀ tag ∈ decodedTags, ∀ otherTag ∈ decodedTags, ∀ body other message, decode tag body = .ok message →
        decode otherTag other = .ok message → tag = otherTag ∧ body = other := by
  have takes : ∀ tag ∈ decodedTags, ∀ body message, decode tag body = .ok message →
      message.Valid ∧ tag = message.tag ∧ body = message.encode := by
    intro tag isTag body message ran
    obtain ⟨⟨result, rest⟩, ranBody, rfl⟩ := map_eq_ok.mp ran
    exact takes_decodeBody isTag ranBody
  refine ⟨fun message valid => decode_encode valid, takes, ?_⟩
  intro tag isTag otherTag isOther body other message ran ranOther
  obtain ⟨-, sameTag, sameBody⟩ := takes tag isTag body message ran
  obtain ⟨-, sameOtherTag, sameOther⟩ := takes otherTag isOther other message ranOther
  exact ⟨sameTag.trans sameOtherTag.symm, sameBody.trans sameOther.symm⟩

/-- A `Bind` of two parameters, one `NULL`, with a format for each. -/
theorem decode_exact_bind :
    let message : WireMessage := .bind "p" "s" [.text, .binary] [some [52, 50], none] [.binary]
    decode 66 message.encode = .ok message := by
  intro message
  exact decode_exact.1 message
    ⟨(by decide : NulFree "p"), (by decide : NulFree "s"), by decide, ⟨by decide, by simp⟩, by decide⟩

end WireMessage

end Ferrite.Protocol
