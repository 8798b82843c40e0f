import Mathlib.Data.List.GetD
import Mathlib.Logic.Function.Iterate

/-!
# Remainders of bit strings

Division of a string of bits by a polynomial over the field of two elements, bit by bit and
reflected: the lowest bit of the register has the highest power, and a step multiplies by
the variable. A step is linear and, where the polynomial has a constant term, injective, so
that two strings which differ only in as many bits as the register has leave different
remainders.
-/

namespace Ferrite.Logical.Remainder

variable {width : Nat}

/-- Multiply by the variable. The bit that leaves the register is the polynomial's. -/
def step (poly register : BitVec width) : BitVec width :=
  if register.getLsbD 0 then (register >>> 1) ^^^ poly else register >>> 1

/-- A bit as the lowest of a register. -/
def bit (width : Nat) (value : Bool) : BitVec width := (BitVec.ofBool value).setWidth width

/-- Take in one bit. -/
def feed (poly register : BitVec width) (value : Bool) : BitVec width := step poly (register ^^^ bit width value)

/-- Divide a string of bits, first bit first. -/
def divide (poly : BitVec width) : BitVec width → List Bool → BitVec width := List.foldl (feed poly)

/-- A string of bits as a number, lowest bit first. -/
def pack (width : Nat) : List Bool → BitVec width
  | [] => .ofNat width 0
  | value :: rest => bit width value ^^^ (pack width rest <<< 1)

/-! ## Packing -/

variable {left right : List Bool} {register : BitVec width}

private theorem getLsbD_bit (value : Bool) (index : Nat) :
    (bit width value).getLsbD index = (decide (index < width) && decide (index = 0) && value) := by
  cases index with
  | zero => simp [bit]
  | succ index => simp [bit]

theorem getLsbD_pack (bits : List Bool) (index : Nat) :
    (pack width bits).getLsbD index = (decide (index < width) && bits.getD index false) := by
  induction bits generalizing index with
  | nil => simp [pack]
  | cons value rest ih =>
    rw [pack, BitVec.getLsbD_xor, getLsbD_bit, BitVec.getLsbD_shiftLeft, ih]
    cases index with
    | zero => simp
    | succ index =>
      by_cases inside : index + 1 < width
      · have before : index < width := by omega
        simp [inside, before]
      · simp [inside]

private theorem pack_injective (length : left.length = right.length) (short : left.length ≤ width)
    (same : pack width left = pack width right) : left = right := by
  refine List.ext_getElem length fun index inLeft inRight => ?_
  have sameBit := congrArg (fun packed => packed.getLsbD index) same
  have inside : index < width := by omega
  simp only [getLsbD_pack, inside, decide_true, Bool.true_and] at sameBit
  rwa [List.getD_eq_getElem _ _ inLeft, List.getD_eq_getElem _ _ inRight] at sameBit

/-! ## One step -/

variable {poly : BitVec width}

private theorem step_xor (left right : BitVec width) : step poly
    (left ^^^ right) = step poly left ^^^ step poly right := by
  have cancel (first second : BitVec width) : first ^^^ second = first ^^^ poly ^^^ (second ^^^ poly) := by
    rw [BitVec.xor_comm second poly, BitVec.xor_assoc, ← BitVec.xor_assoc poly poly, BitVec.xor_self, BitVec.zero_xor]
  simp only [step, BitVec.getLsbD_xor, BitVec.ushiftRight_xor_distrib]
  cases left.getLsbD 0 <;> cases right.getLsbD 0
  · rfl
  · exact BitVec.xor_assoc _ _ _
  · simp only [Bool.xor_false, if_true, Bool.false_eq_true, if_false]
    ac_rfl
  · exact cancel _ _

/-- Where the lowest bit is free a step only shifts. -/
theorem step_shiftLeft (free : register.msb = false) : step poly (register <<< 1) = register := by
  have lowest : (register <<< 1).getLsbD 0 = false := by simp
  rw [step, lowest, if_neg Bool.false_ne_true]
  refine BitVec.eq_of_getLsbD_eq fun index inside => ?_
  rw [BitVec.getLsbD_ushiftRight, BitVec.getLsbD_shiftLeft]
  by_cases last : 1 + index < width
  · simp [last]
  · have isLast : index = width - 1 := by omega
    rw [BitVec.msb_eq_getLsbD_last] at free
    simp [isLast, free]

/-- Only the empty register is multiplied to the empty one. -/
theorem eq_zero_of_step (constant : poly.msb = true) (isZero : step poly register = .ofNat width 0) :
    register = .ofNat width 0 := by
  unfold step at isZero
  split at isZero
  · have same : register >>> 1 = poly := BitVec.xor_eq_zero_iff.mp isZero
    have shifted : (register >>> 1).msb = false := by
      rw [BitVec.msb_eq_getLsbD_last, BitVec.getLsbD_ushiftRight]
      exact BitVec.getLsbD_of_ge _ _ (by omega)
    rw [same, constant] at shifted
    cases shifted
  · rename_i lowest
    refine BitVec.eq_of_getLsbD_eq fun index inside => ?_
    cases index with
    | zero => simpa using lowest
    | succ index =>
      have isFalse := congrArg (fun register => register.getLsbD index) isZero
      simpa [Nat.add_comm] using isFalse

private theorem step_injective (constant : poly.msb = true) : Function.Injective (step poly) := by
  intro left right same
  have isZero : step poly (left ^^^ right) = .ofNat width 0 := by rw [step_xor, same, BitVec.xor_self]
  exact BitVec.xor_eq_zero_iff.mp (eq_zero_of_step constant isZero)

private theorem iterate_xor (count : Nat) (left right : BitVec width) :
    (step poly)^[count] (left ^^^ right) = (step poly)^[count] left ^^^ (step poly)^[count] right := by
  induction count generalizing left right with
  | zero => rfl
  | succ count ih => rw [Function.iterate_succ_apply, step_xor, ih, Function.iterate_succ_apply, Function.iterate_succ_apply]

/-- As long as only zeros leave the register it is only shifted. -/
theorem iterate_of_low_zeros {count : Nat} (zeros : ∀ index < count, register.getLsbD index = false) :
    (step poly)^[count] register = register >>> count := by
  induction count with
  | zero => simp
  | succ count ih =>
    have lowest : (register >>> count).getLsbD 0 = false := by simpa using zeros count (by omega)
    rw [Function.iterate_succ_apply', ih fun index inside => zeros index (by omega), step, lowest,
      if_neg Bool.false_ne_true, BitVec.shiftRight_add]

/-- The low bits count by themselves, and the others are shifted. -/
theorem iterate_eq_shift_xor {mask : BitVec width} {count : Nat}
    (low : ∀ index < width, mask.getLsbD index = decide (index < count)) :
    (step poly)^[count] register = (register >>> count) ^^^ (step poly)^[count] (register &&& mask) := by
  have split : register = ((register >>> count) <<< count) ^^^ (register &&& mask) := by
    refine BitVec.eq_of_getLsbD_eq fun index inside => ?_
    rw [BitVec.getLsbD_xor, BitVec.getLsbD_and, low index inside, BitVec.getLsbD_shiftLeft, BitVec.getLsbD_ushiftRight]
    by_cases isLow : index < count
    · simp [isLow]
    · simp [isLow, inside, Nat.add_sub_cancel' (Nat.le_of_not_lt isLow)]
  have shifted : ((register >>> count) <<< count) >>> count = register >>> count := by
    refine BitVec.eq_of_getLsbD_eq fun index inside => ?_
    simp only [BitVec.getLsbD_ushiftRight, BitVec.getLsbD_shiftLeft]
    by_cases last : count + index < width
    · simp [last]
    · simp [last, BitVec.getLsbD_of_ge register (count + index) (by omega)]
  have zeros : ∀ index < count, ((register >>> count) <<< count).getLsbD index = false := by
    intro index isLow
    simp [isLow]
  calc (step poly)^[count] register
      = (step poly)^[count] (((register >>> count) <<< count) ^^^ (register &&& mask)) := by rw [← split]
    _ = (register >>> count) ^^^ (step poly)^[count] (register &&& mask) := by
        rw [iterate_xor, iterate_of_low_zeros zeros, shifted]

/-! ## Strings of bits -/

/-- A string that fits into the register can be taken in at once. -/
theorem divide_eq_iterate (bits : List Bool) (short : bits.length ≤ width) (register : BitVec width) :
    divide poly register bits = (step poly)^[bits.length] (register ^^^ pack width bits) := by
  induction bits generalizing register with
  | nil => simp [divide, pack]
  | cons value rest ih =>
    rw [List.length_cons] at short
    have free : (pack width rest).msb = false := by
      rw [BitVec.msb_eq_getLsbD_last, getLsbD_pack, List.getD_eq_default _ _ (by omega), Bool.and_false]
    calc divide poly register (value :: rest)
        = divide poly (feed poly register value) rest := rfl
      _ = (step poly)^[rest.length] (step poly (register ^^^ bit width value) ^^^ step poly (pack width rest <<< 1)) := by
          rw [ih (by omega), step_shiftLeft free, feed]
      _ = (step poly)^[rest.length + 1] (register ^^^ pack width (value :: rest)) := by
          rw [← step_xor, BitVec.xor_assoc, Function.iterate_succ_apply, pack]

theorem divide_append (register : BitVec width) (first second : List Bool) :
    divide poly register (first ++ second) = divide poly (divide poly register first) second :=
  List.foldl_append

private theorem divide_injective (constant : poly.msb = true) (bits : List Bool) : Function.Injective
    (divide poly · bits) := by
  induction bits with
  | nil => exact Function.injective_id
  | cons value rest ih =>
    intro left right same
    exact (BitVec.xor_left_inj _).mp (step_injective constant (ih same))

/-- Strings that differ in a window of the register's width leave different remainders. -/
theorem window_injective (constant : poly.msb = true) {before after : List Bool} (length : left.length = right.length)
    (short : left.length ≤ width)
    (same : divide poly register (before ++ (left ++ after)) = divide poly register (before ++ (right ++ after))) :
    left = right := by
  simp only [divide_append] at same
  have sameWindow := divide_injective constant after same
  rw [divide_eq_iterate left short, divide_eq_iterate right (length ▸ short), length] at sameWindow
  have samePacked := (step_injective constant).iterate _ sameWindow
  exact pack_injective length short ((BitVec.xor_right_inj _).mp samePacked)

/-- The same, for strings that agree outside a window. -/
theorem eq_of_divide_eq (constant : poly.msb = true) (length : left.length = right.length) (start : Nat)
    (window : ∀ index, left[index]? ≠ right[index]? → start ≤ index ∧ index < start + width)
    (same : divide poly register left = divide poly register right) : left = right := by
  have cut (bits : List Bool) : bits = bits.take start ++ ((bits.drop start).take width ++ bits.drop (start + width)) := by
    rw [← List.drop_drop, List.take_append_drop, List.take_append_drop]
  have before : left.take start = right.take start := by
    refine List.ext_getElem? fun index => ?_
    simp only [List.getElem?_take]
    split
    · by_contra differ
      have := window index differ
      omega
    · rfl
  have after : left.drop (start + width) = right.drop (start + width) := by
    refine List.ext_getElem? fun index => ?_
    simp only [List.getElem?_drop]
    by_contra differ
    have := window _ differ
    omega
  rw [cut left, cut right, before, after] at same ⊢
  have inside := window_injective constant (by simp [length]) (List.length_take_le _ _) same
  rw [inside]

end Ferrite.Logical.Remainder
