import Mathlib.Data.Int.Basic
import Mathlib.Tactic.IntervalCases

/-!
# The proleptic Gregorian calendar

Days are numbered from 1970-01-01. The number of a date comes from counting years from
March on, so that a leap day is the last day of its year; a cycle of 400 years then has
146097 days, and the year and the month are found again by division. The number of a date
and the date of a number are inverse to each other.
-/

namespace Ferrite.Logical.Gregorian

/-- Every fourth year, but of the full centuries only every fourth. -/
def isLeap (year : Int) : Bool := year % 4 = 0 && (year % 100 ≠ 0 || year % 400 = 0)

def daysInMonth (year month : Int) : Int :=
  if month = 2 then (if isLeap year then 29 else 28)
  else if month = 4 ∨ month = 6 ∨ month = 9 ∨ month = 11 then 30
  else 31

theorem daysInMonth_bounds (year month : Int) : 28 ≤ daysInMonth year month ∧ daysInMonth year month ≤ 31 := by
  unfold daysInMonth
  split_ifs <;> decide

/-- A date as it is written, which may not exist. -/
structure Civil where
  year : Int
  month : Int
  day : Int
deriving DecidableEq

/-- The date is in the calendar. -/
structure Civil.Exists (date : Civil) : Prop where
  month : 1 ≤ date.month ∧ date.month ≤ 12
  day : 1 ≤ date.day ∧ date.day ≤ daysInMonth date.year date.month

instance (date : Civil) : Decidable date.Exists :=
  decidable_of_iff ((1 ≤ date.month ∧ date.month ≤ 12) ∧ 1 ≤ date.day ∧ date.day ≤ daysInMonth date.year date.month)
    ⟨fun both => ⟨both.1, both.2⟩, fun date => ⟨date.month, date.day⟩⟩

/-! ## Years from March on -/

/-- The year a date belongs to when years begin in March. -/
def Civil.marchYear (date : Civil) : Int := if date.month ≤ 2 then date.year - 1 else date.year

/-- The month of a date, with March as month 0. -/
def Civil.marchMonth (date : Civil) : Int := if 2 < date.month then date.month - 3 else date.month + 9

/-- The days of a year from March before a month of it. -/
def daysBefore (marchMonth : Int) : Int := (153 * marchMonth + 2) / 5

/-- The days before a year from March, counted from the year 0. -/
def daysBeforeYear (marchYear : Int) : Int := 365 * marchYear + marchYear / 4 - marchYear / 100 + marchYear / 400

def Civil.dayNumber (date : Civil) : Int :=
  daysBeforeYear date.marchYear + daysBefore date.marchMonth + date.day - 1 - 719468

/-- The date of a day in a year from March. -/
def ofMarch (marchYear dayOfYear : Int) : Civil :=
  let marchMonth := (5 * dayOfYear + 2) / 153
  ⟨if marchMonth < 10 then marchYear else marchYear + 1, if marchMonth < 10 then marchMonth + 3 else marchMonth - 9,
    dayOfYear - daysBefore marchMonth + 1⟩

/-- The year of a 400-year cycle that a day of the cycle falls in. -/
def yearOfEra (dayOfEra : Int) : Int := (dayOfEra - dayOfEra / 1460 + dayOfEra / 36524 - dayOfEra / 146096) / 365

/-- The date of a number. -/
def civilOf (number : Int) : Civil :=
  let era := (number + 719468) / 146097
  let dayOfEra := (number + 719468) % 146097
  let year := yearOfEra dayOfEra
  ofMarch (400 * era + year) (dayOfEra - (365 * year + year / 4 - year / 100))

/-! ## Cycles -/

/-- A day of a 400-year cycle: the century, the four years in it and the year in them. The
last day of a four-year group is a leap day, unless it is the last one of a century that is
not the fourth. -/
structure CycleDay (century fours year day : Int) : Prop where
  centuryInside : 0 ≤ century ∧ century ≤ 3
  foursInside : 0 ≤ fours ∧ fours ≤ 24
  yearInside : 0 ≤ year ∧ year ≤ 3
  dayInside : 0 ≤ day
  leap : day ≤ 364 ∨ day = 365 ∧ year = 3 ∧ (fours < 24 ∨ century = 3)

variable {century fours year day : Int}

private theorem exists_cycleDay {dayOfEra : Int} (lower : 0 ≤ dayOfEra) (upper : dayOfEra < 146097) :
    ∃ century fours year day, CycleDay century fours year day ∧
      dayOfEra = 36524 * century + 1461 * fours + 365 * year + day := by
  let century := min (dayOfEra / 36524) 3
  let ofCentury := dayOfEra - 36524 * century
  let year := min (ofCentury % 1461 / 365) 3
  exact ⟨century, ofCentury / 1461, year, ofCentury % 1461 - 365 * year,
    ⟨by omega, by omega, by omega, by omega, by omega⟩, by omega⟩

namespace CycleDay

variable (cycle : CycleDay century fours year day)

include cycle

private theorem bounds : 0 ≤ 36524 * century + 1461 * fours + 365 * year + day ∧
    36524 * century + 1461 * fours + 365 * year + day < 146097 := by
  obtain ⟨_, _, _, _, _⟩ := cycle
  omega

/-- The division finds the year again. -/
theorem yearOfEra_eq : yearOfEra (36524 * century + 1461 * fours + 365 * year + day) =
    100 * century + 4 * fours + year := by
  obtain ⟨_, _, _, _, _⟩ := cycle
  rw [yearOfEra]
  generalize isDay : 36524 * century + 1461 * fours + 365 * year + day = dayOfEra
  have ofCentury : 1461 * fours + 365 * year + day ≤ 36523 ∨
      1461 * fours + 365 * year + day = 36524 ∧ century = 3 := by omega
  have centuries : dayOfEra / 36524 - dayOfEra / 146096 = century := by
    rcases ofCentury with inside | ⟨last, rfl⟩ <;> omega
  have groups : dayOfEra / 1460 = 25 * century + fours + (24 * century + fours + 365 * year + day) / 1460 := by omega
  have within : 0 ≤ day - (24 * century + fours + 365 * year + day) / 1460 ∧
      day - (24 * century + fours + 365 * year + day) / 1460 ≤ 364 := by omega
  omega

/-- The number of a day, from its place in its cycle. -/
theorem civilOf_eq (era : Int) : civilOf (146097 * era + (36524 * century + 1461 * fours + 365 * year + day) - 719468) =
      ofMarch (400 * era + (100 * century + 4 * fours + year)) day := by
  have inside := cycle.bounds
  have isEra : (146097 * era + (36524 * century + 1461 * fours + 365 * year + day) - 719468 + 719468) / 146097 = era := by
    omega
  have isDay : (146097 * era + (36524 * century + 1461 * fours + 365 * year + day) - 719468 + 719468) % 146097 =
      36524 * century + 1461 * fours + 365 * year + day := by
    omega
  simp only [civilOf, isEra, isDay, cycle.yearOfEra_eq]
  obtain ⟨_, _, _, _, _⟩ := cycle
  congr 1
  omega

private theorem daysBeforeYear_eq (era : Int) : daysBeforeYear (400 * era + (100 * century + 4 * fours + year)) + day =
      146097 * era + (36524 * century + 1461 * fours + 365 * year + day) := by
  obtain ⟨_, _, _, _, _⟩ := cycle
  rw [daysBeforeYear]
  omega

/-- The last day of a leap year is in February. -/
theorem isLeap_of_eq (era : Int) (last : day = 365) :
    isLeap (400 * era + (100 * century + 4 * fours + year) + 1) = true := by
  obtain ⟨_, _, _, _, _⟩ := cycle
  simp only [isLeap, Bool.and_eq_true, Bool.or_eq_true, decide_eq_true_eq]
  omega

end CycleDay

/-- The year that a day of a cycle falls in, and the day of that year. -/
theorem yearOfEra_bounds {dayOfEra : Int} (lower : 0 ≤ dayOfEra) (upper : dayOfEra < 146097) :
    (0 ≤ yearOfEra dayOfEra ∧ yearOfEra dayOfEra ≤ 399) ∧
      0 ≤ dayOfEra - (365 * yearOfEra dayOfEra + yearOfEra dayOfEra / 4 - yearOfEra dayOfEra / 100) ∧
      dayOfEra - (365 * yearOfEra dayOfEra + yearOfEra dayOfEra / 4 - yearOfEra dayOfEra / 100) ≤ 365 := by
  obtain ⟨century, fours, year, day, cycle, rfl⟩ := exists_cycleDay lower upper
  rw [cycle.yearOfEra_eq]
  obtain ⟨_, _, _, _, _⟩ := cycle
  have quarters : (100 * century + 4 * fours + year) / 4 = 25 * century + fours := by omega
  have centuries : (100 * century + 4 * fours + year) / 100 = century := by omega
  rw [quarters, centuries]
  omega

/-! ## Days of a year -/

section

variable {marchYear dayOfYear : Int} (lower : 0 ≤ dayOfYear) (upper : dayOfYear ≤ 365)

include lower upper

private theorem marchYear_ofMarch : (ofMarch marchYear dayOfYear).marchYear = marchYear := by
  simp only [ofMarch, Civil.marchYear]
  split <;> split <;> omega

private theorem marchMonth_ofMarch : (ofMarch marchYear dayOfYear).marchMonth = (5 * dayOfYear + 2) / 153 := by
  simp only [ofMarch, Civil.marchMonth]
  split <;> split <;> omega

private theorem dayNumber_ofMarch :
    (ofMarch marchYear dayOfYear).dayNumber = daysBeforeYear marchYear + dayOfYear - 719468 := by
  rw [Civil.dayNumber, marchYear_ofMarch lower upper, marchMonth_ofMarch lower upper]
  simp only [ofMarch]
  omega

private theorem exists_ofMarch (leap : dayOfYear = 365 → isLeap (marchYear + 1) = true) :
    (ofMarch marchYear dayOfYear).Exists := by
  have months : 0 ≤ (5 * dayOfYear + 2) / 153 ∧ (5 * dayOfYear + 2) / 153 ≤ 11 := by omega
  refine ⟨?_, ?_, ?_⟩
  · simp only [ofMarch]
    split <;> omega
  · simp only [ofMarch, daysBefore]
    omega
  · obtain ⟨marchMonth, isMonth⟩ : ∃ marchMonth, (5 * dayOfYear + 2) / 153 = marchMonth := ⟨_, rfl⟩
    simp only [ofMarch, daysBefore, daysInMonth, isMonth]
    obtain ⟨first, last⟩ := months
    rw [isMonth] at first last
    interval_cases marchMonth <;> simp <;> try omega
    by_cases isLast : dayOfYear = 365
    · simp [leap isLast]
      omega
    · split <;> omega

end

/-! ## Numbers and dates -/

private theorem exists_place (number : Int) : ∃ era century fours year day, CycleDay century fours year day ∧
      number = 146097 * era + (36524 * century + 1461 * fours + 365 * year + day) - 719468 := by
  obtain ⟨century, fours, year, day, cycle, isDay⟩ :=
    exists_cycleDay (Int.emod_nonneg (number + 719468) (by decide)) (Int.emod_lt_of_pos (number + 719468) (by decide))
  exact ⟨(number + 719468) / 146097, century, fours, year, day, cycle, by omega⟩

theorem exists_civilOf (number : Int) : (civilOf number).Exists := by
  obtain ⟨era, century, fours, year, day, cycle, rfl⟩ := exists_place number
  rw [cycle.civilOf_eq]
  have inside := cycle.leap
  exact exists_ofMarch cycle.dayInside (by omega) (cycle.isLeap_of_eq era)

/-- The date of a day number has that number. -/
theorem dayNumber_civilOf (number : Int) : (civilOf number).dayNumber = number := by
  obtain ⟨era, century, fours, year, day, cycle, rfl⟩ := exists_place number
  have inside := cycle.leap
  rw [cycle.civilOf_eq, dayNumber_ofMarch cycle.dayInside (by omega), cycle.daysBeforeYear_eq]

/-- The day after a date. -/
def Civil.next (date : Civil) : Civil :=
  if date.day < daysInMonth date.year date.month then { date with day := date.day + 1 }
  else if date.month < 12 then ⟨date.year, date.month + 1, 1⟩
  else ⟨date.year + 1, 1, 1⟩

/-- The day of its year from March that a date is. -/
def Civil.dayOfYear (date : Civil) : Int := daysBefore date.marchMonth + date.day - 1

section

variable {date : Civil} (exist : date.Exists)

include exist

private theorem dayOfYear_bounds : 0 ≤ date.dayOfYear ∧ date.dayOfYear ≤ 365 ∧
    (date.dayOfYear = 365 → isLeap (date.marchYear + 1) = true) := by
  obtain ⟨⟨firstMonth, lastMonth⟩, firstDay, lastDay⟩ := exist
  simp only [Civil.dayOfYear, daysBefore, Civil.marchMonth, Civil.marchYear, daysInMonth] at lastDay ⊢
  obtain ⟨year, month, day⟩ := date
  dsimp only at *
  interval_cases month <;> simp at * <;> try omega
  cases leap : isLeap year <;> simp [leap] at * <;> omega

private theorem month_dayOfYear : (5 * date.dayOfYear + 2) / 153 = date.marchMonth := by
  obtain ⟨⟨firstMonth, lastMonth⟩, firstDay, lastDay⟩ := exist
  obtain ⟨year, month, day⟩ := date
  simp only [Civil.dayOfYear, daysBefore, Civil.marchMonth, daysInMonth] at *
  have short : month = 2 → day ≤ 29 := by
    rintro rfl
    simp at lastDay
    split at lastDay <;> omega
  interval_cases month <;> simp at * <;> omega

private theorem ofMarch_dayOfYear : ofMarch date.marchYear date.dayOfYear = date := by
  have months := exist.month
  rw [ofMarch, month_dayOfYear exist]
  obtain ⟨year, month, day⟩ := date
  simp only [Civil.dayOfYear, Civil.marchYear, Civil.marchMonth, Civil.mk.injEq] at months ⊢
  refine ⟨?_, ?_, by omega⟩
  · split_ifs <;> omega
  · split_ifs <;> omega

/-- A date that exists is the date of its number. -/
theorem civilOf_dayNumber : civilOf date.dayNumber = date := by
  obtain ⟨lower, upper, leap⟩ := dayOfYear_bounds exist
  obtain ⟨era, century, fours, year, isYear, centuryInside, foursInside, yearInside⟩ :
      ∃ era century fours year, date.marchYear = 400 * era + (100 * century + 4 * fours + year) ∧
        (0 ≤ century ∧ century ≤ 3) ∧ (0 ≤ fours ∧ fours ≤ 24) ∧ 0 ≤ year ∧ year ≤ 3 :=
    ⟨date.marchYear / 400, date.marchYear % 400 / 100, date.marchYear % 100 / 4, date.marchYear % 4, by omega⟩
  have cycle : CycleDay century fours year date.dayOfYear := by
    refine ⟨centuryInside, foursInside, yearInside, lower, ?_⟩
    by_cases last : date.dayOfYear = 365
    · have isLeap := leap last
      simp only [Gregorian.isLeap, Bool.and_eq_true, Bool.or_eq_true, decide_eq_true_eq] at isLeap
      omega
    · exact .inl (by omega)
  have isNumber : date.dayNumber =
      146097 * era + (36524 * century + 1461 * fours + 365 * year + date.dayOfYear) - 719468 := by
    rw [← cycle.daysBeforeYear_eq, ← isYear, Civil.dayNumber, Civil.dayOfYear]
    omega
  rw [isNumber, cycle.civilOf_eq, ← isYear, ofMarch_dayOfYear exist]

theorem exists_next : date.next.Exists := by
  obtain ⟨⟨firstMonth, lastMonth⟩, firstDay, lastDay⟩ := exist
  unfold Civil.next
  split
  · exact ⟨⟨firstMonth, lastMonth⟩, by dsimp only; omega⟩
  · have monthIsLong (year month : Int) : 1 ≤ daysInMonth year month :=
      le_trans (by decide) (daysInMonth_bounds year month).1
    split
    · exact ⟨by dsimp only; omega, le_refl _, monthIsLong _ _⟩
    · exact ⟨by simp, le_refl _, monthIsLong _ _⟩

theorem dayNumber_next : date.next.dayNumber = date.dayNumber + 1 := by
  obtain ⟨⟨firstMonth, lastMonth⟩, firstDay, lastDay⟩ := exist
  unfold Civil.next
  split
  · simp only [Civil.dayNumber, Civil.marchYear, Civil.marchMonth]
    omega
  · rename_i notInside
    have isLast : date.day = daysInMonth date.year date.month := by omega
    obtain ⟨year, month, day⟩ := date
    dsimp only at *
    subst isLast
    simp only [Civil.dayNumber, Civil.marchYear, Civil.marchMonth, daysBefore, daysBeforeYear, daysInMonth]
    interval_cases month <;> simp <;> try omega
    cases leap : isLeap year <;> simp [isLeap] at leap ⊢ <;> omega

end

end Ferrite.Logical.Gregorian
