import Ferrite.Common.Modifiers

/-!
# Day numbers and dates

The two functions of `ferrite-common/src/datetime.rs` between day numbers and dates, and the
planner's copy of one of them, together: they are inverse to each other on the dates of the
calendar, and follow its order.
-/

namespace Ferrite

open Logical Logical.Gregorian

namespace Plan

/-- The planner's copy of the day number. -/
def daysFromCivil (year month day : Int) : Checked Int := do
  let year ← ((year : I64) - (if month ≤ 2 then (1 : I64) else 0)).value
  let era ← ((if 0 ≤ year then (year : I64) else year - 399) / 400).value
  let yearOfEra ← ((year : I64) - era * 400).value
  let dayOfYear ← ((153 * ((month : I64) + (if 2 < month then ((-3 : Int) : I64) else 9)) + 2) / 5 + day - 1).value
  let dayOfEra ← ((yearOfEra : I64) * 365 + yearOfEra / 4 - yearOfEra / 100 + dayOfYear).value
  ((era : I64) * 146097 + dayOfEra - 719468).value

/-- The two copies compute the same. -/
theorem daysFromCivil_eq_shared {year month : Int} (fits : FitsI64 year) (unsigned : 0 ≤ month ∧ month ≤ 2 ^ 32) (day : Int) :
    daysFromCivil year month day = Ferrite.daysFromCivil year month day := by
  have years : (year : I64) - (if month ≤ 2 then (1 : I64) else 0) = if month ≤ 2 then (year : I64) - 1 else year := by
    split
    · rfl
    · rw [I64.ofNat_eq, I64.of_sub (by simpa using fits.1) (by simpa using fits.2)]
      exact congrArg I64.of (Int.sub_zero year)
  have months : (month : I64) + (if 2 < month then ((-3 : Int) : I64) else 9) =
      I64.of (if 2 < month then month - 3 else month + 9) := by
    split
    · exact I64.of_add (by omega) (by omega)
    · exact I64.of_add (by omega) (by omega)
  rw [daysFromCivil, Ferrite.daysFromCivil, years, months]

end Plan

/-- The date of a day number, with its length of the month from the code. -/
theorem civilFromDays_isDate {number : Int} (lower : -2 ^ 60 ≤ number) (upper : number ≤ 2 ^ 60) :
    ∃ date, civilFromDays number = .ok date ∧ (1 ≤ date.month ∧ date.month ≤ 12) ∧
      (1 ≤ date.day ∧ date.day ≤ daysInMonth date.year date.month) ∧
      daysFromCivil date.year date.month date.day = .ok number ∧ civilFromDays (number + 1) = .ok date.next := by
  have exist := exists_civilOf number
  have isNumber := dayNumber_civilOf number
  refine ⟨civilOf number, civilFromDays_eq (by omega) (by omega), exist.month, ?_, ?_, ?_⟩
  · rw [daysInMonth_eq exist.month]
    exact exist.day
  · rw [daysFromCivil_of_exists exist (by omega) (by omega), isNumber]
  · rw [civilFromDays_eq (by omega) (by omega), ← civilOf_dayNumber (exists_next exist), dayNumber_next exist, isNumber]

private theorem civilFromDays_dayNumber {date : Civil} (exist : date.Exists) (lower : -2 ^ 60 ≤ date.dayNumber)
    (upper : date.dayNumber ≤ 2 ^ 60) :
    daysFromCivil date.year date.month date.day = .ok date.dayNumber ∧ civilFromDays date.dayNumber = .ok date := by
  refine ⟨daysFromCivil_of_exists exist lower upper, ?_⟩
  rw [civilFromDays_eq (by omega) (by omega), civilOf_dayNumber exist]

/-- Day numbers and dates correspond to each other, in order, and both copies of the code
compute the number of a date. -/
theorem calendar_is_bijection : (∀ number : Int, -2 ^ 60 ≤ number → number ≤ 2 ^ 60 →
      ∃ date, civilFromDays number = .ok date ∧ (1 ≤ date.month ∧ date.month ≤ 12) ∧
        (1 ≤ date.day ∧ date.day ≤ daysInMonth date.year date.month) ∧
        daysFromCivil date.year date.month date.day = .ok number ∧ civilFromDays (number + 1) = .ok date.next) ∧
      (∀ date : Civil, date.Exists → -2 ^ 60 ≤ date.dayNumber → date.dayNumber ≤ 2 ^ 60 →
        daysFromCivil date.year date.month date.day = .ok date.dayNumber ∧ civilFromDays date.dayNumber = .ok date) ∧
      ∀ year month day : Int, FitsI64 year → 0 ≤ month ∧ month < 2 ^ 32 →
        Plan.daysFromCivil year month day = daysFromCivil year month day := by
  refine ⟨?_, ?_, ?_⟩
  · intro number lower upper
    exact civilFromDays_isDate lower upper
  · intro date exist lower upper
    exact civilFromDays_dayNumber exist lower upper
  · intro year month day fits unsigned
    exact Plan.daysFromCivil_eq_shared fits ⟨unsigned.1, Int.le_of_lt unsigned.2⟩ day

/-- A leap day, there and back. -/
theorem calendar_at_leap_day : daysFromCivil 2024 2 29 = .ok 19782 ∧ civilFromDays 19782 = .ok ⟨2024, 2, 29⟩ :=
  calendar_is_bijection.2.1 ⟨2024, 2, 29⟩ (by decide) (by decide) (by decide)

end Ferrite
