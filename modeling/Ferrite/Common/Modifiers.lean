import Ferrite.Common.DateText

/-!
# Date modifiers

`apply_modifier`, `add_months` and `days_in_month` of `ferrite-common/src/datetime.rs`: an
instant is moved by a number of seconds, minutes, hours or days, or by a number of months of
the calendar. A modifier of the first kind that overflows is refused; the arithmetic of
months is on 64-bit integers without a check of its own.
-/

namespace Ferrite

open Logical Logical.Gregorian Logical.Text Parts

def daysInMonth (y m : Int) : Int :=
  if m = 1 ∨ m = 3 ∨ m = 5 ∨ m = 7 ∨ m = 8 ∨ m = 10 ∨ m = 12 then 31
  else if m = 4 ∨ m = 6 ∨ m = 9 ∨ m = 11 then 30
  else if y.tmod 4 = 0 ∧ (y.tmod 100 ≠ 0 ∨ y.tmod 400 = 0) then 29
  else 28

/-- Move an instant by months. A day the month does not have becomes its last day. -/
def addMonths (micros months : Int) : Checked Int := do
  let parts ← partsFromMicros micros
  let total ← ((parts.date.year : I64) * 12 + ((parts.date.month : I64) - 1) + months).value
  -- Euclidean division and remainder
  let year := total / 12
  let month := total % 12 + 1
  let day := min parts.date.day (daysInMonth year month)
  let days ← daysFromCivil year month day
  (((days : I64) * 86400 + (parts.hour : I64) * 3600 + (parts.minute : I64) * 60 + parts.second) * 1000000 +
    parts.micro).value

/-- What a modifier counts. -/
inductive ModifierUnit where
  | second
  | minute
  | hour
  | day
  | month
  | year
deriving DecidableEq

namespace ModifierUnit

def read (unit : List Char) : Option ModifierUnit :=
  if unit = "second".toList then some second
  else if unit = "minute".toList then some minute
  else if unit = "hour".toList then some hour
  else if unit = "day".toList then some day
  else if unit = "month".toList then some month
  else if unit = "year".toList then some year
  else none

/-- The microseconds of a unit of fixed length. -/
def scale : ModifierUnit → Option Int
  | second => some 1000000
  | minute => some 60000000
  | hour => some 3600000000
  | day => some 86400000000
  | month => none
  | year => none

/-- The months of a unit of the calendar. -/
def months : ModifierUnit → Int
  | year => 12
  | _ => 1

end ModifierUnit

/-- A number, white space, and a unit in the singular or the plural. -/
def readModifier (modifier : List Char) : Option (Int × ModifierUnit) := do
  let (amount, unit) ← splitOnce isWhitespace (trim modifier)
  let amount ← readI64 amount
  let unit ← ModifierUnit.read ((trim unit).rdropWhile (· == 's'))
  some (amount, unit)

/-- Apply one modifier; one that is not known, or that overflows, gives nothing. -/
def applyModifier (micros : Int) (modifier : String) : Checked (Option Int) :=
  match readModifier modifier.toList with
  | none => pure none
  | some (amount, unit) =>
    match unit.scale with
    | some scale =>
      if FitsI64 (amount * scale) ∧ FitsI64 (micros + amount * scale) then pure (some (micros + amount * scale))
      else pure none
    | none => do
      let months ← (if unit = .year then (amount : I64) * 12 else amount).value
      let instant ← addMonths micros months
      pure (some instant)

/-! ## Months of the calendar -/

private theorem tmod_eq_zero {number divisor : Int} : number.tmod divisor = 0 ↔ number % divisor = 0 :=
  Int.dvd_iff_tmod_eq_zero.symm.trans Int.dvd_iff_emod_eq_zero

theorem daysInMonth_eq {month : Int} (inside : 1 ≤ month ∧ month ≤ 12) (year : Int) :
    daysInMonth year month = Gregorian.daysInMonth year month := by
  simp only [daysInMonth, Gregorian.daysInMonth, isLeap, ne_eq, tmod_eq_zero, Bool.and_eq_true, Bool.or_eq_true,
    decide_eq_true_eq]
  split_ifs <;> omega

/-- The date so many months later; a day the month does not have becomes its last day. -/
def shiftDate (date : Civil) (months : Int) : Civil :=
  let total := date.year * 12 + (date.month - 1) + months
  { year := total / 12
    month := total % 12 + 1
    day := min date.day (Gregorian.daysInMonth (total / 12) (total % 12 + 1)) }

private theorem exists_shiftDate {date : Civil} (exist : date.Exists) (months : Int) :
    (shiftDate date months).Exists := by
  have isDay := exist.day
  have length := daysInMonth_bounds (shiftDate date months).year (shiftDate date months).month
  refine ⟨?_, ?_, ?_⟩
  · dsimp only [shiftDate]
    omega
  · exact le_min isDay.1 (le_trans (by decide) length.1)
  · exact min_le_right _ _

/-- The same time of day so many months later. -/
def Parts.shift (parts : Parts) (months : Int) : Parts := { parts with date := shiftDate parts.date months }

/-- The whole seconds of an instant. -/
def Parts.seconds (parts : Parts) : Int :=
  parts.date.dayNumber * 86400 + parts.hour * 3600 + parts.minute * 60 + parts.second

private theorem Parts.exists_shift {parts : Parts} (exist : parts.Exists) (months : Int) :
    (parts.shift months).Exists :=
  ⟨exists_shiftDate exist.date months, exist.hour, exist.minute, exist.second, exist.micro⟩

section

variable {micros months : Int} (fits : FitsI64 micros)
  (fitsShifted : FitsI64 ((ofMicros micros).shift months).micros)

private theorem dayNumber_bounds {parts : Parts} (exist : parts.Exists) (fits : FitsI64 parts.micros) :
    -2 ^ 27 ≤ parts.date.dayNumber ∧ parts.date.dayNumber ≤ 2 ^ 27 := by
  obtain ⟨-, hours, minutes, seconds, micro⟩ := exist
  simp only [FitsI64, micros] at fits
  omega

include fits fitsShifted

/-- Neither the months before nor the months after are many. -/
theorem months_bounds : -2 ^ 57 ≤ months ∧ months ≤ 2 ^ 57 ∧
    -2 ^ 52 ≤ (ofMicros micros).date.year ∧ (ofMicros micros).date.year ≤ 2 ^ 52 := by
  have exist := exists_ofMicros micros
  have existShifted := exists_shift exist months
  have days := dayNumber_bounds exist (by rwa [micros_ofMicros])
  have shiftedDays := dayNumber_bounds existShifted fitsShifted
  have years := year_bounds exist.date (by omega) (by omega)
  have shiftedYears := year_bounds existShifted.date (by omega) (by omega)
  have month := exist.date.month
  dsimp only [shift, shiftDate] at shiftedYears
  omega

/-- Up to the last two operations nothing overflows. -/
theorem addMonths_eq :
    addMonths micros months = (do
      let whole ← fit (((ofMicros micros).shift months).seconds * 1000000)
      fit (whole + (ofMicros micros).micro)) := by
  have exist := exists_ofMicros micros
  have existShifted := exists_shift exist months
  have days := dayNumber_bounds existShifted fitsShifted
  have number := daysFromCivil_of_exists existShifted.date (by omega) (by omega)
  have bounds := months_bounds fits fitsShifted
  have shiftedMonth := existShifted.date.month
  rw [addMonths, partsFromMicros_eq (by have := fits.1; omega) (by have := fits.2; omega), ok_bind]
  obtain ⟨⟨month, -⟩, hours, minutes, seconds, micro⟩ := exist
  simp (disch := omega) only [I64.ofNat_eq, I64.of_mul, I64.of_sub, I64.of_add, I64.value_of, ok_bind]
  dsimp only [shift, shiftDate] at number shiftedMonth days
  rw [daysInMonth_eq shiftedMonth, number, ok_bind]
  simp (disch := omega) only [I64.of_mul, I64.of_add]
  rfl

/-- The last product overflows in the first second of the range. -/
theorem addMonths_eq_ok_iff : addMonths micros months = .ok ((ofMicros micros).shift months).micros ↔
    -9223372036854000000 ≤ ((ofMicros micros).shift months).micros := by
  have micro := (exists_ofMicros micros).micro
  have split : ((ofMicros micros).shift months).micros =
      ((ofMicros micros).shift months).seconds * 1000000 + (ofMicros micros).micro := rfl
  rw [addMonths_eq fits fitsShifted]
  rw [split] at fitsShifted ⊢
  generalize ((ofMicros micros).shift months).seconds = seconds at *
  generalize (ofMicros micros).micro = micro at *
  constructor
  · intro returned
    obtain ⟨whole, isWhole, -⟩ := bind_eq_ok.mp returned
    have fitsWhole := (fit_eq_ok.mp isWhole).1.1
    omega
  · intro inside
    rw [fit_eq (by omega) (by have := fitsShifted.2; omega), ok_bind]
    exact fit_eq fitsShifted.1 fitsShifted.2

end

/-! ## What a modifier should do -/

namespace ModifierUnit

/-- The exact result: so many microseconds later, or the same time of day so many months
later. -/
def target (unit : ModifierUnit) (amount micros : Int) : Int :=
  match unit.scale with
  | some scale => micros + amount * scale
  | none => ((ofMicros micros).shift (amount * unit.months)).micros

/-- The instant `after` is `months` months later on the calendar: the year and month are
moved, the day is kept or is the last of its month, the time of day is kept. -/
structure MovesMonths (months : Int) (before after : Parts) : Prop where
  month : after.date.year * 12 + after.date.month = before.date.year * 12 + before.date.month + months
  day : after.date.day = min before.date.day (Gregorian.daysInMonth after.date.year after.date.month)
  time : after = { before with date := after.date }

/-- What the result of a modifier has to be. -/
def Moves (unit : ModifierUnit) (amount before after : Int) : Prop :=
  match unit.scale with
  | some scale => after = before + amount * scale
  | none => MovesMonths (amount * unit.months) (ofMicros before) (ofMicros after)

/-- The modifier itself fits, or the result is not in the first second of the range. -/
def StaysInside (unit : ModifierUnit) (amount micros : Int) : Prop :=
  match unit.scale with
  | some scale => FitsI64 (amount * scale)
  | none => -9223372036854000000 ≤ unit.target amount micros

private theorem moves_target (unit : ModifierUnit) (amount micros : Int) : unit.Moves amount micros
    (unit.target amount micros) := by
  unfold Moves target
  split
  · rfl
  · rw [ofMicros_micros (exists_shift (exists_ofMicros micros) _)]
    refine ⟨?_, rfl, rfl⟩
    dsimp only [shift, shiftDate]
    omega

end ModifierUnit

/-- A modifier whose exact result fits moves an instant to it exactly when no step before
overflows. -/
theorem applyModifier_eq_target_iff {micros amount : Int} {modifier : String} {unit : ModifierUnit} (fits : FitsI64 micros)
    (read : readModifier modifier.toList = some (amount, unit)) (fitsTarget : FitsI64 (unit.target amount micros)) :
    unit.Moves amount micros (unit.target amount micros) ∧
      (applyModifier micros modifier = .ok (some (unit.target amount micros)) ↔ unit.StaysInside amount micros) := by
  refine ⟨unit.moves_target amount micros, ?_⟩
  rw [applyModifier, read]
  cases length : unit.scale with
  | some scale =>
    simp only [ModifierUnit.target, length] at fitsTarget
    simp only [ModifierUnit.target, ModifierUnit.StaysInside, length, fitsTarget, and_true]
    constructor
    · intro returned
      by_contra tooLarge
      rw [if_neg tooLarge] at returned
      cases returned
    · intro inside
      rw [if_pos inside]
      rfl
  | none =>
    have isTarget : unit.target amount micros = ((ofMicros micros).shift (amount * unit.months)).micros := by
      simp only [ModifierUnit.target, length]
    rw [isTarget] at fitsTarget ⊢
    have bounds := months_bounds fits fitsTarget
    have months : (if unit = .year then (amount : I64) * 12 else amount).value = .ok (amount * unit.months) := by
      cases unit with
      | year =>
        simp only [ModifierUnit.months] at bounds
        simp (disch := omega) only [if_true, I64.ofNat_eq, I64.of_mul, I64.value_of, ModifierUnit.months]
      | month => simp [ModifierUnit.months]
      | _ => cases length
    have staysInside : unit.StaysInside amount micros ↔
        -9223372036854000000 ≤ ((ofMicros micros).shift (amount * unit.months)).micros := by
      simp only [ModifierUnit.StaysInside, length, isTarget]
    simp only [length]
    rw [months, ok_bind, staysInside, ← addMonths_eq_ok_iff fits fitsTarget]
    cases addMonths micros (amount * unit.months) with
    | error panic => constructor <;> intro returned <;> cases returned
    | ok instant =>
      constructor
      · intro returned
        cases returned
        rfl
      · intro returned
        cases returned
        rfl

/-- A leap day, one year earlier. -/
theorem leap_day_moves_to_february_28 : ModifierUnit.year.Moves (-1) 1709210096000007 1677587696000007 ∧
      (applyModifier 1709210096000007 "-1 years" = .ok (some 1677587696000007) ↔
        ModifierUnit.year.StaysInside (-1) 1709210096000007) := by
  have isTarget : ModifierUnit.year.target (-1) 1709210096000007 = 1677587696000007 := by decide +kernel
  rw [← isTarget]
  exact applyModifier_eq_target_iff (by decide) (by decide +kernel) (by decide +kernel)

/-- The first microsecond of the range cannot be moved by no months, and not by as many
seconds as lead to its end. -/
theorem first_instant_does_not_move :
    FitsI64 (ModifierUnit.month.target 0 (-2 ^ 63)) ∧ applyModifier (-2 ^ 63) "0 months" = .error .overflow ∧
      FitsI64 (ModifierUnit.second.target 9223372036855 (-2 ^ 63)) ∧
      applyModifier (-2 ^ 63) "9223372036855 seconds" = .ok none := by
  decide +kernel

end Ferrite
