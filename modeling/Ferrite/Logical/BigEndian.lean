import Ferrite.Logical.LittleEndian

/-!
# Big-endian numbers

The bytes of a number, most significant first. Every list of bytes is the writing of one
number of its width.
-/

namespace Ferrite.Logical

/-- The number some bytes spell, and its bytes, are found again from each other. -/
theorem toLe_ofLe (bytes : List UInt8) : toLe bytes.length (ofLe bytes) = bytes := by
  induction bytes with
  | nil => rfl
  | cons byte rest ih =>
    have low : (byte.toNat + 256 * ofLe rest) % 256 = byte.toNat := by
      have := byte.toNat_lt
      omega
    have high : (byte.toNat + 256 * ofLe rest) / 256 = ofLe rest := by
      have := byte.toNat_lt
      omega
    rw [List.length_cons, ofLe, toLe, low, high, ih]
    simp

/-- `to_be_bytes`. -/
def toBe (width value : Nat) : List UInt8 := (toLe width value).reverse

@[simp] theorem length_toBe (width value : Nat) : (toBe width value).length = width := by simp [toBe]

/-- A number that fits is read back. -/
theorem ofLe_reverse_toBe {width value : Nat} (fits : value < 256 ^ width) : ofLe (toBe width value).reverse = value := by
  rw [toBe, List.reverse_reverse, ofLe_toLe_of_lt fits]

theorem toBe_ofLe_reverse (bytes : List UInt8) : toBe bytes.length (ofLe bytes.reverse) = bytes := by
  have same := toLe_ofLe bytes.reverse
  rw [List.length_reverse] at same
  rw [toBe, same, List.reverse_reverse]

end Ferrite.Logical
