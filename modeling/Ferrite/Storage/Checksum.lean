import Ferrite.Logical.Remainder
import Ferrite.Storage.Page

/-!
# The checksum

`ferrite-storage/src/crc.rs`: a table of 256 words, and a checksum that takes a byte at a
time from it. It is the remainder of the bits of the bytes, lowest bit first, under the
reflected division by the Castagnoli polynomial.
-/

namespace Ferrite.Storage

open Logical.Remainder

def poly : UInt32 := 0x82f63b78

/-- One turn of the inner loop of `build_table`. -/
def tableStep (crc : UInt32) : UInt32 := if crc &&& 1 ≠ 0 then (crc >>> 1) ^^^ poly else crc >>> 1

def buildTable : Vector UInt32 256 := Vector.ofFn fun index => tableStep^[8] (UInt32.ofNat index)

theorem toNat_and_lt (crc : UInt32) : (crc &&& 0xff).toNat < 256 := by
  rw [UInt32.toNat_and]
  exact Nat.lt_of_le_of_lt Nat.and_le_right (by decide)

/-- Take in one byte. -/
def update (crc : UInt32) (byte : UInt8) : UInt32 :=
  (crc >>> 8) ^^^ buildTable.get ⟨((crc ^^^ byte.toUInt32) &&& 0xff).toNat, toNat_and_lt _⟩

def crc32c (bytes : Bytes) : UInt32 := ~~~ bytes.foldl update 0xffffffff

/-! ## The division -/

/-- The Castagnoli polynomial, highest power first and without its leading term. -/
def castagnoli : BitVec 32 := 0x1edc6f41

/-- The bits of a byte, lowest first. -/
def byteBits (byte : UInt8) : List Bool := (List.range 8).map byte.toBitVec.getLsbD

def bits (bytes : Bytes) : List Bool := bytes.flatMap byteBits

private theorem toBitVec_poly : poly.toBitVec = castagnoli.reverse := by decide +kernel

private theorem lowest_bit (crc : UInt32) : crc &&& 1 ≠ 0 ↔ crc.toBitVec.getLsbD 0 = true := by
  rw [← UInt32.toBitVec_inj.ne, UInt32.toBitVec_and]
  have isBit : crc.toBitVec &&& 1#32 = (BitVec.ofBool (crc.toBitVec.getLsbD 0)).setWidth 32 :=
    BitVec.and_one_eq_setWidth_ofBool_getLsbD
  change crc.toBitVec &&& 1#32 ≠ 0#32 ↔ _
  rw [isBit]
  cases crc.toBitVec.getLsbD 0 <;> decide

private theorem toBitVec_tableStep (crc : UInt32) : (tableStep crc).toBitVec = step castagnoli.reverse crc.toBitVec
    := by
  simp only [tableStep, step, lowest_bit, ← toBitVec_poly]
  split <;> simp

private theorem toBitVec_iterate (count : Nat) (crc : UInt32) :
    (tableStep^[count] crc).toBitVec = (step castagnoli.reverse)^[count] crc.toBitVec := by
  induction count generalizing crc with
  | zero => rfl
  | succ count ih => rw [Function.iterate_succ_apply, ih, toBitVec_tableStep, Function.iterate_succ_apply]

/-- An entry of the table is the remainder of its index. -/
theorem get_buildTable (crc : UInt32) :
    buildTable.get ⟨(crc &&& 0xff).toNat, toNat_and_lt crc⟩ = tableStep^[8] (crc &&& 0xff) := by
  have entry : buildTable.get ⟨(crc &&& 0xff).toNat, toNat_and_lt crc⟩ =
      tableStep^[8] (UInt32.ofNat (crc &&& 0xff).toNat) := Vector.getElem_ofFn (toNat_and_lt crc)
  rw [entry, UInt32.ofNat_toNat]

private theorem getD_byteBits (byte : UInt8) (index : Nat) : (byteBits byte).getD index false = byte.toBitVec.getLsbD index := by
  by_cases inside : index < 8
  · simp [byteBits, inside]
  · rw [List.getD_eq_default _ _ (by simpa [byteBits] using inside), BitVec.getLsbD_of_ge _ _ (by omega)]

private theorem pack_byteBits (byte : UInt8) : pack 32 (byteBits byte) = byte.toUInt32.toBitVec := by
  refine BitVec.eq_of_getLsbD_eq fun index inside => ?_
  rw [getLsbD_pack, getD_byteBits]
  simp [inside]

/-- A byte from the table is its eight bits. -/
theorem toBitVec_update (crc : UInt32) (byte : UInt8) :
    (update crc byte).toBitVec = divide castagnoli.reverse crc.toBitVec (byteBits byte) := by
  have high : byte.toUInt32.toBitVec >>> 8 = 0#32 := by
    refine BitVec.eq_of_getLsbD_eq fun index inside => ?_
    simp
  rw [divide_eq_iterate _ (by simp [byteBits]), pack_byteBits, update, get_buildTable, UInt32.toBitVec_xor, toBitVec_iterate]
  have eight : (byteBits byte).length = 8 := by simp [byteBits]
  have mask : ∀ index < 32, (0xff#32).getLsbD index = decide (index < 8) := by decide
  have shifts := @iterate_eq_shift_xor _ (crc.toBitVec ^^^ byte.toUInt32.toBitVec) castagnoli.reverse _ _ mask
  rw [eight, shifts, BitVec.ushiftRight_xor_distrib, high, BitVec.xor_zero]
  rfl

private theorem toBitVec_foldl (bytes : Bytes) (crc : UInt32) :
    (bytes.foldl update crc).toBitVec = divide castagnoli.reverse crc.toBitVec (bits bytes) := by
  induction bytes generalizing crc with
  | nil => rfl
  | cons byte rest ih => rw [List.foldl_cons, ih, toBitVec_update, bits, bits, List.flatMap_cons, divide_append]

private theorem toBitVec_crc32c (bytes : Bytes) :
    (crc32c bytes).toBitVec = ~~~ divide castagnoli.reverse (BitVec.allOnes 32) (bits bytes) := by
  rw [crc32c, UInt32.toBitVec_not, toBitVec_foldl]
  rfl

/-! ## Bursts -/

private theorem byteBits_injective : Function.Injective byteBits := by
  intro left right same
  refine UInt8.toBitVec_inj.mp (BitVec.eq_of_getLsbD_eq fun index _ => ?_)
  rw [← getD_byteBits, same, getD_byteBits]

private theorem length_bits (bytes : Bytes) : (bits bytes).length = 8 * bytes.length := by
  induction bytes with
  | nil => rfl
  | cons byte rest ih =>
    rw [bits] at ih ⊢
    simp [byteBits, ih]
    omega

private theorem bits_injective : Function.Injective bits := by
  intro left
  induction left with
  | nil =>
    intro right same
    have length := congrArg List.length same
    rw [length_bits, length_bits, List.length_nil] at length
    exact (List.eq_nil_of_length_eq_zero (by omega)).symm
  | cons byte rest ih =>
    intro right same
    cases right with
    | nil =>
      have length := congrArg List.length same
      rw [length_bits, length_bits, List.length_nil, List.length_cons] at length
      omega
    | cons otherByte otherRest =>
      obtain ⟨sameByte, sameRest⟩ := List.append_inj same (by simp [byteBits])
      rw [byteBits_injective sameByte, ih sameRest]

/-- The checksum is the complement of the remainder, from a register of ones, and changes
with every burst of at most 32 bits. -/
theorem crc32c_is_castagnoli :
    (∀ bytes, (crc32c bytes).toBitVec = ~~~ divide castagnoli.reverse (BitVec.allOnes 32) (bits bytes)) ∧
      ∀ (left right : Bytes) (start : Nat), left.length = right.length → left ≠ right →
        (∀ index, (bits left)[index]? ≠ (bits right)[index]? → start ≤ index ∧ index < start + 32) →
        crc32c left ≠ crc32c right := by
  refine ⟨toBitVec_crc32c, ?_⟩
  intro left right start length differ window same
  have sameRemainder := congrArg UInt32.toBitVec same
  rw [toBitVec_crc32c, toBitVec_crc32c, BitVec.not_inj] at sameRemainder
  have sameBits := eq_of_divide_eq (by decide +kernel) (by rw [length_bits, length_bits, length]) start window sameRemainder
  exact differ (bits_injective sameBits)

example : crc32c [49, 50, 51, 52, 53, 54, 55, 56, 57] = 0xe3069283 := by decide +kernel

end Ferrite.Storage
