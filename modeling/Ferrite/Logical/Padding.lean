import Mathlib.Data.List.DropRight
import Ferrite.Logical.Numeral

/-!
# Numbers of a fixed width

Decimal numbers with leading zeros, as `{:04}` writes them, and with trailing zeros cut off,
as in a fraction. Both are read back.
-/

namespace Ferrite.Logical.Numeral

/-- A natural number with at least `width` digits. -/
def pad (width number : Nat) : List Char :=
  List.replicate (width - (Nat.toDigits 10 number).length) '0' ++ Nat.toDigits 10 number

/-- An integer in at least `width` characters; a sign is one of them. -/
def padInt (width : Nat) (number : Int) : List Char :=
  if number < 0 then '-' :: pad (width - 1) number.natAbs else pad width number.natAbs

variable {width number : Nat} {digits : List Char}

theorem isDigit_of_mem_pad {char : Char} (member : char ∈ pad width number) : char.isDigit = true := by
  rcases List.mem_append.mp member with zero | digit
  · rw [List.eq_of_mem_replicate zero]
    rfl
  · exact Nat.isDigit_of_mem_toDigits (show 0 < 10 by decide) (by decide) digit

theorem pad_ne_nil (width number : Nat) : pad width number ≠ [] := by simp [pad, Nat.toDigits_ne_nil]

theorem readDigits_pad (width number : Nat) : readDigits 10 0 (pad width number) = some number := by
  rw [pad, readDigits_zeros (by decide), readDigits_toDigits (by decide) (by decide)]

theorem readNat_pad (width number : Nat) : readNat 10 (pad width number) = some number :=
  readNat_of_readDigits (pad_ne_nil width number) (readDigits_pad width number)

theorem length_pad (positive : 0 < width) (small : number < 10 ^ width) : (pad width number).length = width := by
  have short : (Nat.toDigits 10 number).length ≤ width := Nat.length_toDigits_le_iff (by decide) positive |>.mpr small
  simp only [pad, List.length_append, List.length_replicate]
  omega

private theorem readDigits_replicate_zero (value count : Nat) :
    readDigits 10 value (List.replicate count '0') = some (value * 10 ^ count) := by
  induction count generalizing value with
  | zero => simp [readDigits]
  | succ count ih =>
    have zero : digitValue '0' = some 0 := by decide
    rw [List.replicate_succ, readDigits, zero]
    simp only [show (0 : Nat) < 10 by decide, if_true, Nat.add_zero, ih, Option.some.injEq]
    rw [Nat.pow_succ, Nat.mul_assoc, Nat.mul_comm 10]

/-- Cutting zeros off the end divides by a power of ten. -/
theorem readDigits_rdropWhile (read : readDigits 10 0 digits = some number) :
    ∃ value, readDigits 10 0 (digits.rdropWhile (· == '0')) = some value ∧
      number = value * 10 ^ (digits.length - (digits.rdropWhile (· == '0')).length) := by
  have rejoined : digits.rdropWhile (· == '0') ++ digits.rtakeWhile (· == '0') = digits :=
    List.rdropWhile_append_rtakeWhile
  have zeros : digits.rtakeWhile (· == '0') =
      List.replicate (digits.length - (digits.rdropWhile (· == '0')).length) '0' := by
    refine List.eq_replicate_iff.mpr ⟨?_, fun char member => by simpa using List.mem_rtakeWhile_imp member⟩
    have := congrArg List.length rejoined
    rw [List.length_append] at this
    omega
  rw [← rejoined, readDigits_append] at read
  obtain ⟨value, isValue, read⟩ := Option.bind_eq_some_iff.mp read
  rw [zeros, readDigits_replicate_zero] at read
  exact ⟨value, isValue, (Option.some.inj read).symm⟩

/-- Only the number zero consists of zeros. -/
theorem rdropWhile_ne_nil (read : readDigits 10 0 digits = some number) (notZero : number ≠ 0) :
    digits.rdropWhile (· == '0') ≠ [] := by
  intro empty
  obtain ⟨value, isValue, same⟩ := readDigits_rdropWhile read
  rw [empty] at isValue
  cases isValue
  simp at same
  exact notZero same

end Ferrite.Logical.Numeral
