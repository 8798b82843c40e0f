import Mathlib.Algebra.Ring.Int.Defs
import Ferrite.Logical.Fallible

/-!
# Arithmetic that may panic

Machine integers of 64 bits with overflow checks: every operation either gives its exact
result or stops the program. A computation that returns has therefore computed what it says
over the integers.
-/

namespace Ferrite.Logical

/-- What stops a program that does not return. -/
inductive Panic where
  | overflow
  | divisionByZero
  | outOfBounds
  | unreachable
deriving DecidableEq

/-- A computation that may panic. -/
abbrev Checked := Except Panic

/-- The value is a 64-bit integer. -/
def FitsI64 (value : Int) : Prop := -2 ^ 63 ≤ value ∧ value < 2 ^ 63

instance (value : Int) : Decidable (FitsI64 value) := inferInstanceAs (Decidable (_ ∧ _))

/-- The result of an operation on 64-bit integers. -/
def fit (value : Int) : Checked Int := if FitsI64 value then .ok value else .error .overflow

/-- An expression over 64-bit integers, checked at every operation. -/
structure I64 where
  value : Checked Int

namespace I64

/-- A number that is there already. -/
def of (number : Int) : I64 := ⟨.ok number⟩

instance : Coe Int I64 := ⟨of⟩

instance (number : Nat) : OfNat I64 number := ⟨of (OfNat.ofNat number)⟩

/-- Apply an operation whose result may not fit. -/
def combine (operation : Int → Int → Int) (left right : I64) : I64 where
  value := do
    let leftValue ← left.value
    let rightValue ← right.value
    fit (operation leftValue rightValue)

instance : Add I64 := ⟨combine (· + ·)⟩

instance : Sub I64 := ⟨combine (· - ·)⟩

instance : Mul I64 := ⟨combine (· * ·)⟩

/-- Division truncates. -/
def quotient (left right : I64) : I64 where
  value := do
    let leftValue ← left.value
    let rightValue ← right.value
    if rightValue = 0 then .error .divisionByZero else fit (leftValue.tdiv rightValue)

instance : Div I64 := ⟨quotient⟩

end I64

variable {value result divisor shift : Int}

theorem fit_eq (lower : -2 ^ 63 ≤ value) (upper : value < 2 ^ 63) : fit value = .ok value := if_pos ⟨lower, upper⟩

theorem fit_eq_ok : fit value = .ok result ↔ FitsI64 value ∧ result = value := by
  unfold fit
  split
  · rename_i fits
    simp [fits, eq_comm]
  · rename_i tooLarge
    simp [tooLarge]

/-! ## Within bounds -/

namespace I64

variable {left right : Int}

@[simp] theorem value_of (number : Int) : (of number).value = .ok number := rfl

@[simp] theorem ofNat_eq (number : Nat) : (OfNat.ofNat number : I64) = of (OfNat.ofNat number) := rfl

/-- A sum that fits does not overflow. -/
theorem of_add (lower : -2 ^ 63 ≤ left + right) (upper : left + right < 2 ^ 63) :
    of left + of right = of (left + right) := congrArg I64.mk (fit_eq lower upper)

/-- A difference that fits does not overflow. -/
theorem of_sub (lower : -2 ^ 63 ≤ left - right) (upper : left - right < 2 ^ 63) :
    of left - of right = of (left - right) := congrArg I64.mk (fit_eq lower upper)

/-- A product that fits does not overflow. -/
theorem of_mul (lower : -2 ^ 63 ≤ left * right) (upper : left * right < 2 ^ 63) :
    of left * of right = of (left * right) := congrArg I64.mk (fit_eq lower upper)

theorem of_div (notNegative : 0 ≤ left) (upper : left < 2 ^ 63) (positive : 0 < right) :
    of left / of right = of (left / right) := by
  have lower : 0 ≤ left / right := Int.ediv_nonneg notNegative (Int.le_of_lt positive)
  have smaller : left / right ≤ left := Int.ediv_le_self right notNegative
  refine congrArg I64.mk ?_
  change (if right = 0 then _ else fit (left.tdiv right)) = _
  rw [if_neg (Int.ne_of_gt positive), Int.tdiv_eq_ediv_of_nonneg notNegative]
  exact fit_eq (by omega) (by omega)

end I64

/-! ## Rounding down -/

/-- Truncated division rounds down once negative numbers are moved down. -/
theorem tdiv_shifted (positive : 0 < divisor) (number : Int) :
    (if 0 ≤ number then number else number - (divisor - 1)).tdiv divisor = number / divisor := by
  split
  · rename_i notNegative
    exact Int.tdiv_eq_ediv_of_nonneg notNegative
  · rename_i negative
    have split := Int.mul_ediv_add_emod number divisor
    have remainder := Int.emod_nonneg number (Int.ne_of_gt positive)
    have small := Int.emod_lt_of_pos number positive
    have mirrored : number - (divisor - 1) = -(divisor - 1 - number % divisor + divisor * -(number / divisor)) := by
      rw [Int.mul_neg]
      omega
    have notNegative : 0 ≤ divisor - 1 - number % divisor + divisor * -(number / divisor) := by omega
    rw [mirrored, Int.neg_tdiv, Int.tdiv_eq_ediv_of_nonneg notNegative,
      Int.add_mul_ediv_left _ _ (Int.ne_of_gt positive), Int.ediv_eq_zero_of_lt (by omega) (by omega)]
    omega

theorem of_floor {number : Int} (next : divisor = shift + 1) (positive : 0 < divisor)
    (lower : -2 ^ 63 ≤ number - shift) (upper : number < 2 ^ 63) :
    (if 0 ≤ number then I64.of number else I64.of number - I64.of shift) / I64.of divisor =
      I64.of (number / divisor) := by
  have smaller : (number / divisor).natAbs ≤ number.natAbs := Int.natAbs_ediv_le_natAbs number divisor
  have fits : fit (number / divisor) = .ok (number / divisor) := by
    rcases Int.lt_or_le number 0 with negative | notNegative
    · have := Int.ediv_neg_of_neg_of_pos negative positive
      exact fit_eq (by omega) (by omega)
    · have := Int.ediv_le_self divisor notNegative
      exact fit_eq (by omega) (by omega)
  rw [← tdiv_shifted positive] at fits ⊢
  have shifted : (if 0 ≤ number then I64.of number else I64.of number - I64.of shift) =
      I64.of (if 0 ≤ number then number else number - (divisor - 1)) := by
    split
    · rfl
    · rw [next, Int.add_sub_cancel]
      exact I64.of_sub lower (by omega)
  rw [shifted]
  refine congrArg I64.mk ?_
  change (if divisor = 0 then _ else fit _) = _
  rw [if_neg (Int.ne_of_gt positive), fits]

end Ferrite.Logical
