import Ferrite.Logical.Checked
import Ferrite.Logical.Gregorian

/-!
# Calendar arithmetic

The day-number algorithms of `ferrite-common/src/datetime.rs`, on 64-bit integers as the
source has them. An operation that overflows is a panic. Where nothing overflows they agree
with the Gregorian calendar.
-/

namespace Ferrite

open Logical Logical.Gregorian

/-- Days from the Unix epoch to a date, negative before 1970. -/
def daysFromCivil (y m d : Int) : Checked Int := do
  let y ← (if m ≤ 2 then (y : I64) - 1 else y).value
  let era ← ((if 0 ≤ y then (y : I64) else y - 399) / 400).value
  let yoe ← ((y : I64) - era * 400).value
  let mp := if 2 < m then m - 3 else m + 9
  let doy ← ((153 * (mp : I64) + 2) / 5 + d - 1).value
  let doe ← ((yoe : I64) * 365 + yoe / 4 - yoe / 100 + doy).value
  ((era : I64) * 146097 + doe - 719468).value

def civilFromDays (z : Int) : Checked Civil := do
  let z ← ((z : I64) + 719468).value
  let era ← ((if 0 ≤ z then (z : I64) else z - 146096) / 146097).value
  let doe ← ((z : I64) - era * 146097).value
  let yoe ← (((doe : I64) - doe / 1460 + doe / 36524 - doe / 146096) / 365).value
  let y ← ((yoe : I64) + era * 400).value
  let doy ← ((doe : I64) - (365 * yoe + yoe / 4 - yoe / 100)).value
  let mp ← ((5 * (doy : I64) + 2) / 153).value
  let d ← ((doy : I64) - (153 * mp + 2) / 5 + 1).value
  let m ← (if mp < 10 then (mp : I64) + 3 else mp - 9).value
  -- the casts to unsigned integers of 32 bits
  let d := d % 2 ^ 32
  let m := m % 2 ^ 32
  let year ← (if m ≤ 2 then (y : I64) + 1 else y).value
  pure { year, month := m, day := d }

/-- A date and a time of day. -/
structure Parts where
  date : Civil
  hour : Int
  minute : Int
  second : Int
  micro : Int
deriving DecidableEq

/-- Split microseconds since the epoch. The division is the Euclidean one. -/
def partsFromMicros (micros : Int) : Checked Parts := do
  let days := micros / 86400000000
  let rem := micros % 86400000000
  let date ← civilFromDays days
  pure
    { date
      hour := rem / 3600000000
      minute := rem / 60000000 % 60
      second := rem / 1000000 % 60
      micro := rem % 1000000 }

/-! ## Dates and day numbers -/

theorem daysFromCivil_eq {date : Civil} (month : 0 ≤ date.month ∧ date.month ≤ 2 ^ 32)
    (day : 0 ≤ date.day ∧ date.day ≤ 2 ^ 32) (year : -2 ^ 52 ≤ date.year ∧ date.year ≤ 2 ^ 52) :
    daysFromCivil date.year date.month date.day = .ok date.dayNumber := by
  have first : (if date.month ≤ 2 then (date.year : I64) - 1 else date.year).value = .ok date.marchYear := by
    unfold Civil.marchYear
    split
    · simp (disch := omega) only [I64.ofNat_eq, I64.of_sub, I64.value_of]
    · rfl
  have years : -2 ^ 53 ≤ date.marchYear ∧ date.marchYear ≤ 2 ^ 53 := by
    unfold Civil.marchYear
    omega
  have months : 0 ≤ date.marchMonth ∧ date.marchMonth ≤ 2 ^ 32 := by
    unfold Civil.marchMonth
    omega
  have era : (if 0 ≤ date.marchYear then (date.marchYear : I64) else date.marchYear - 399) / 400 =
      I64.of (date.marchYear / 400) := of_floor rfl (by decide) (by omega) (by omega)
  have month_eq : (if 2 < date.month then date.month - 3 else date.month + 9) = date.marchMonth := rfl
  rw [daysFromCivil, first, ok_bind, era, month_eq]
  simp (disch := omega) only [I64.ofNat_eq, I64.of_add, I64.of_sub, I64.of_mul, I64.of_div, I64.value_of, ok_bind]
  refine congrArg Except.ok ?_
  unfold Civil.dayNumber daysBeforeYear daysBefore
  omega

section

variable {date : Civil} (exist : date.Exists) (lower : -2 ^ 60 ≤ date.dayNumber) (upper : date.dayNumber ≤ 2 ^ 60)

include exist lower upper

theorem year_bounds : -2 ^ 52 ≤ date.year ∧ date.year ≤ 2 ^ 52 := by
  obtain ⟨months, days⟩ := exist
  have length := daysInMonth_bounds date.year date.month
  simp only [Civil.dayNumber, daysBeforeYear, daysBefore, Civil.marchYear, Civil.marchMonth] at lower upper
  omega

/-- The day number of a date that exists. -/
theorem daysFromCivil_of_exists : daysFromCivil date.year date.month date.day = .ok date.dayNumber := by
  have days := exist.day
  have length := daysInMonth_bounds date.year date.month
  have months := exist.month
  exact daysFromCivil_eq (by omega) (by omega) (year_bounds exist lower upper)

end

/-- The date of a day number, as long as nothing overflows. -/
theorem civilFromDays_eq {number : Int} (lower : -2 ^ 62 ≤ number) (upper : number ≤ 2 ^ 62) :
    civilFromDays number = .ok (civilOf number) := by
  have shifted : (number : I64) + 719468 = I64.of (number + 719468) := I64.of_add (by omega) (by omega)
  have era : (if 0 ≤ number + 719468 then ((number + 719468 : Int) : I64) else (number + 719468 : Int) - 146096) / 146097 =
      I64.of ((number + 719468) / 146097) := of_floor rfl (by decide) (by omega) (by omega)
  rw [civilFromDays, shifted, I64.value_of, ok_bind, era]
  have eras : -2 ^ 46 ≤ (number + 719468) / 146097 ∧ (number + 719468) / 146097 ≤ 2 ^ 46 := by omega
  have dayOfEra : number + 719468 - (number + 719468) / 146097 * 146097 = (number + 719468) % 146097 := by omega
  have days : 0 ≤ (number + 719468) % 146097 ∧ (number + 719468) % 146097 < 146097 := by omega
  rw [civilOf]
  simp (disch := omega) only [I64.ofNat_eq, I64.of_sub, I64.of_mul, I64.value_of, ok_bind, dayOfEra]
  generalize (number + 719468) / 146097 = era at *
  generalize (number + 719468) % 146097 = doe at *
  obtain ⟨years, dayOfYear⟩ := yearOfEra_bounds days.1 days.2
  have year_eq : (doe - doe / 1460 + doe / 36524 - doe / 146096) / 365 = yearOfEra doe := rfl
  simp (disch := omega) only [I64.of_add, I64.of_sub, I64.of_mul, I64.of_div, I64.value_of, ok_bind, year_eq]
  generalize yearOfEra doe = yoe at *
  generalize doe - (365 * yoe + yoe / 4 - yoe / 100) = doy at *
  have months : 0 ≤ (5 * doy + 2) / 153 ∧ (5 * doy + 2) / 153 ≤ 11 := by omega
  have day : (doy - (153 * ((5 * doy + 2) / 153) + 2) / 5 + 1) % 2 ^ 32 =
      doy - daysBefore ((5 * doy + 2) / 153) + 1 := by
    unfold daysBefore
    omega
  rw [ofMarch, day]
  generalize (5 * doy + 2) / 153 = mp at *
  by_cases before : mp < 10
  · have month : (mp + 3) % 2 ^ 32 = mp + 3 := by omega
    rw [if_pos before, I64.value_of, ok_bind, month, if_neg (by omega), I64.value_of, ok_bind, if_pos before,
      if_pos before, Int.add_comm yoe, Int.mul_comm]
    rfl
  · have month : (mp - 9) % 2 ^ 32 = mp - 9 := by omega
    rw [if_neg before, I64.value_of, ok_bind, month, if_pos (by omega), I64.value_of, ok_bind, if_neg before,
      if_neg before, Int.add_comm yoe, Int.mul_comm]
    rfl

/-! ## Instants -/

namespace Parts

/-- The instant, in microseconds since the epoch. -/
def micros (parts : Parts) : Int :=
  (parts.date.dayNumber * 86400 + parts.hour * 3600 + parts.minute * 60 + parts.second) * 1000000 + parts.micro

/-- An existing date and time of day. -/
structure Exists (parts : Parts) : Prop where
  date : parts.date.Exists
  hour : 0 ≤ parts.hour ∧ parts.hour ≤ 23
  minute : 0 ≤ parts.minute ∧ parts.minute ≤ 59
  second : 0 ≤ parts.second ∧ parts.second ≤ 59
  micro : 0 ≤ parts.micro ∧ parts.micro ≤ 999999

/-- The parts of an instant. -/
def ofMicros (micros : Int) : Parts where
  date := civilOf (micros / 86400000000)
  hour := micros % 86400000000 / 3600000000
  minute := micros % 86400000000 / 60000000 % 60
  second := micros % 86400000000 / 1000000 % 60
  micro := micros % 86400000000 % 1000000

theorem exists_ofMicros (micros : Int) : (ofMicros micros).Exists where
  date := exists_civilOf _
  hour := by
    simp only [ofMicros]
    omega
  minute := by
    simp only [ofMicros]
    omega
  second := by
    simp only [ofMicros]
    omega
  micro := by
    simp only [ofMicros]
    omega

theorem micros_ofMicros (micros : Int) : (ofMicros micros).micros = micros := by
  simp only [Parts.micros, ofMicros, dayNumber_civilOf]
  omega

theorem ofMicros_micros {parts : Parts} (inside : parts.Exists) : ofMicros parts.micros = parts := by
  obtain ⟨date, hour, minute, second, micro⟩ := inside
  obtain ⟨ofDate, h, min, s, us⟩ := parts
  simp only at hour minute second micro
  have days : Parts.micros ⟨ofDate, h, min, s, us⟩ / 86400000000 = ofDate.dayNumber := by
    simp only [Parts.micros]
    omega
  have rem : Parts.micros ⟨ofDate, h, min, s, us⟩ % 86400000000 = (h * 3600 + min * 60 + s) * 1000000 + us := by
    simp only [Parts.micros]
    omega
  simp only [ofMicros, days, rem, civilOf_dayNumber date, mk.injEq, true_and]
  omega

end Parts

/-- In this range no step of the conversion overflows. -/
theorem partsFromMicros_eq {micros : Int} (lower : -2 ^ 97 ≤ micros) (upper : micros ≤ 2 ^ 97) :
    partsFromMicros micros = .ok (Parts.ofMicros micros) := by
  rw [partsFromMicros, civilFromDays_eq (by omega) (by omega)]
  rfl

end Ferrite
