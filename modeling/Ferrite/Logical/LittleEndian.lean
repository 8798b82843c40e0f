import Mathlib.Data.List.Basic
import Mathlib.Tactic.Ring

/-!
# Little-endian numbers

A number written as a fixed count of bytes, least significant first, and read back.
-/

namespace Ferrite.Logical

/-- The `width` low-order bytes of a number, least significant first. -/
def toLe : Nat → Nat → List UInt8
  | 0, _ => []
  | width + 1, value => UInt8.ofNat (value % 256) :: toLe width (value / 256)

/-- The number some bytes spell, least significant first. -/
def ofLe : List UInt8 → Nat
  | [] => 0
  | byte :: rest => byte.toNat + 256 * ofLe rest

@[simp] theorem length_toLe (width value : Nat) : (toLe width value).length = width := by
  induction width generalizing value with
  | zero => rfl
  | succ width ih => simp [toLe, ih]

private theorem ofLe_toLe (width value : Nat) : ofLe (toLe width value) = value % 256 ^ width := by
  induction width generalizing value with
  | zero => simp [toLe, ofLe, Nat.mod_one]
  | succ width ih =>
    have low : (UInt8.ofNat (value % 256)).toNat = value % 256 := by simp
    rw [toLe, ofLe, low, ih, pow_succ', Nat.mod_mul]

/-- A number that fits is read back. -/
theorem ofLe_toLe_of_lt {width value : Nat} (fits : value < 256 ^ width) : ofLe (toLe width value) = value := by
  rw [ofLe_toLe, Nat.mod_eq_of_lt fits]

theorem ofLe_lt (bytes : List UInt8) : ofLe bytes < 256 ^ bytes.length := by
  induction bytes with
  | nil => simp [ofLe]
  | cons byte rest ih =>
    have small := byte.toNat_lt
    rw [ofLe, List.length_cons, pow_succ']
    omega

/-- Only the part of a number that fits is written. -/
theorem toLe_mod (width value : Nat) : toLe width (value % 256 ^ width) = toLe width value := by
  induction width generalizing value with
  | zero => rfl
  | succ width ih =>
    have low : value % 256 ^ (width + 1) % 256 = value % 256 := by rw [pow_succ', Nat.mod_mul_right_mod]
    have high : value % 256 ^ (width + 1) / 256 = value / 256 % 256 ^ width := by
      rw [pow_succ', Nat.mod_mul_right_div_self]
    rw [toLe, toLe, low, high, ih]

end Ferrite.Logical
