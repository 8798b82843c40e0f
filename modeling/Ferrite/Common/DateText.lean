import Ferrite.Common.Civil
import Ferrite.Logical.Text

/-!
# Instants as text

`parse_timestamp` and `parse_parts` of `ferrite-common/src/datetime.rs`.
A reader first takes a text apart into the fields written in it and then computes the
instant; the fields are kept as a record, so that the result can be compared with them.
-/

namespace Ferrite

open Logical Logical.Gregorian Logical.Text

/-- `str::parse` of a signed integer of 64 bits. -/
def readI64 (text : List Char) : Option Int := (Numeral.readInt text).filter fun value => decide (FitsI64 value)

/-- `str::parse` of an unsigned integer of 32 bits. -/
def readU32 (text : List Char) : Option Int :=
  ((Numeral.readNat 10 text).filter fun value => decide (value < 2 ^ 32)).map Int.ofNat

/-- A date and a time as they are written. A fraction that is not written is empty. -/
structure Written where
  date : Civil
  hour : Int
  minute : Int
  second : Int
  fraction : List Char
  zone : Option (List Char)
deriving DecidableEq

namespace Written

/-- The microseconds of a fraction. What parses has at most six characters, so neither the
power nor the product can overflow. -/
def fractionMicros (fraction : List Char) : Option Int :=
  if fraction = [] then some 0 else (readI64 fraction).map (· * 10 ^ (6 - fraction.length))

def midnight (date : Civil) : Written where
  date
  hour := 0
  minute := 0
  second := 0
  fraction := []
  zone := none

/-- The parts as they are written. -/
def parts (written : Written) : Parts where
  date := written.date
  hour := written.hour
  minute := written.minute
  second := written.second
  micro := (fractionMicros written.fraction).getD 0

end Written

/-- Three numbers with dashes between; a month has at most 31 days. -/
def readDate (number : List Char → Option Int) (text : List Char) : Option Civil :=
  match text.splitOn '-' with
  | [y, m, d] => do
    let year ← readI64 y
    let month ← number m
    let day ← number d
    if 1 ≤ month ∧ month ≤ 12 ∧ 1 ≤ day ∧ day ≤ 31 then some { year, month, day } else none
  | _ => none

/-- A time of day is only bounded from above. -/
def withinDay (hour minute second : Int) : Bool := hour ≤ 23 && minute ≤ 59 && second ≤ 60

/-- Seconds and the first six characters of their fraction. -/
def readSeconds (text : List Char) : Option (Int × List Char) :=
  match splitOnce (· == '.') text with
  | some (whole, fraction) => do
    let second ← readI64 whole
    let _ ← readI64 (fraction.take 6)
    some (second, fraction.take 6)
  | none => do
    let second ← readI64 text
    some (second, [])

/-- A time of day on a date. -/
def readClock (date : Civil) (zone : Option (List Char)) (text : List Char) : Option Written :=
  match text.splitOn ':' with
  | [h, min] => do
    let hour ← readI64 h
    let minute ← readI64 min
    if withinDay hour minute 0 then some { date, hour, minute, second := 0, fraction := [], zone } else none
  | [h, min, sec] => do
    let hour ← readI64 h
    let minute ← readI64 min
    let (second, fraction) ← readSeconds sec
    if withinDay hour minute second then some { date, hour, minute, second, fraction, zone } else none
  | _ => none

/-- The fields of a date and what follows it. What stands after a plus sign is dropped. -/
def readParts (date rest : List Char) : Option Written := do
  let date ← readDate readU32 date
  if rest = [] then some (.midnight date)
  else
    match splitOnce (· == '+') rest with
    | some (time, zone) => readClock date (some zone) (time.rdropWhile (· == 'Z'))
    | none => readClock date none (rest.rdropWhile (· == 'Z'))

/-- The instant of a date and what follows it. -/
def parseParts (date rest : List Char) : Checked (Option Int) :=
  match readParts date rest with
  | none => pure none
  | some written => do
    let days ← daysFromCivil written.date.year written.date.month written.date.day
    if rest = [] then
      let micros ← ((days : I64) * 86400000000).value
      pure (some micros)
    else
      let frac := (Written.fractionMicros written.fraction).getD 0
      let micros ← (((days : I64) * 86400 + written.hour * 3600 + written.minute * 60 + written.second) * 1000000 +
        frac).value
      pure (some micros)

/-- A space or a `T`. -/
def separatesTime (char : Char) : Bool := char == ' ' || char == 'T'

/-- What the wire codec takes for a timestamp: the time is required. -/
def parseTimestamp (text : String) : Checked (Option Int) :=
  match splitOnce separatesTime (trim text.toList) with
  | some (date, rest) => parseParts date rest
  | none => pure none

/-! ## What is read -/

variable {text : List Char} {date : Civil} {written : Written}

theorem readI64_eq_some {value : Int} :
    readI64 text = some value ↔ Numeral.readInt text = some value ∧ FitsI64 value := by
  simp [readI64, Option.filter_eq_some_iff]

/-- The bounds a reader checks. A year cannot be negative, since its sign would be a dash. -/
structure Written.Plausible (written : Written) : Prop where
  year : 0 ≤ written.date.year ∧ written.date.year < 2 ^ 63
  month : 1 ≤ written.date.month ∧ written.date.month ≤ 12
  day : 1 ≤ written.date.day ∧ written.date.day ≤ 31
  hour : written.hour ≤ 23
  minute : written.minute ≤ 59
  second : written.second ≤ 60

private theorem readDate_bounds {number : List Char → Option Int} (read : readDate number text = some date) :
    (0 ≤ date.year ∧ date.year < 2 ^ 63) ∧ (1 ≤ date.month ∧ date.month ≤ 12) ∧ 1 ≤ date.day ∧ date.day ≤ 31 := by
  unfold readDate at read
  split at read
  · rename_i y m d cut
    simp only [Option.bind_eq_bind, Option.bind_eq_some_iff, Option.ite_none_right_eq_some, Option.some.injEq] at read
    obtain ⟨year, readYear, month, -, day, -, inside, rfl⟩ := read
    obtain ⟨readYear, fits⟩ := readI64_eq_some.mp readYear
    obtain ⟨char, rest, rfl, -, notNegative | rfl, -⟩ := Numeral.isDigit_of_readInt readYear
    · exact ⟨⟨notNegative, fits.2⟩, ⟨inside.1, inside.2.1⟩, inside.2.2⟩
    · exact absurd List.mem_cons_self (not_mem_of_mem_splitOn (by rw [cut]; exact List.mem_cons_self))
  · cases read

private theorem plausible_midnight {number : List Char → Option Int} (read : readDate number text = some date) :
    (Written.midnight date).Plausible := by
  obtain ⟨year, month, day⟩ := readDate_bounds read
  exact ⟨year, month, day, Int.le.intro 23 rfl, Int.le.intro 59 rfl, Int.le.intro 60 rfl⟩

theorem withinDay_iff {hour minute second : Int} :
    withinDay hour minute second = true ↔ hour ≤ 23 ∧ minute ≤ 59 ∧ second ≤ 60 := by
  simp [withinDay, and_assoc]

private theorem readClock_spec {zone : Option (List Char)} (read : readClock date zone text = some written) :
    written.date = date ∧ written.zone = zone ∧ written.hour ≤ 23 ∧ written.minute ≤ 59 ∧ written.second ≤ 60 := by
  unfold readClock at read
  split at read
  · simp only [Option.bind_eq_bind, Option.bind_eq_some_iff, Option.ite_none_right_eq_some, Option.some.injEq] at read
    obtain ⟨hour, -, minute, -, inside, rfl⟩ := read
    exact ⟨rfl, rfl, withinDay_iff.mp inside⟩
  · simp only [Option.bind_eq_bind, Option.bind_eq_some_iff, Option.ite_none_right_eq_some, Option.some.injEq] at read
    obtain ⟨hour, -, minute, -, seconds, -, inside, rfl⟩ := read
    exact ⟨rfl, rfl, withinDay_iff.mp inside⟩
  · cases read

private theorem plausible_readParts {date rest : List Char} (read : readParts date rest = some written) :
    written.Plausible := by
  obtain ⟨ofDate, readDate, read⟩ := Option.bind_eq_some_iff.mp read
  obtain ⟨year, month, day⟩ := readDate_bounds readDate
  split at read
  · cases read
    exact plausible_midnight readDate
  · split at read
    · obtain ⟨rfl, -, hour, minute, second⟩ := readClock_spec read
      exact ⟨year, month, day, hour, minute, second⟩
    · obtain ⟨rfl, -, hour, minute, second⟩ := readClock_spec read
      exact ⟨year, month, day, hour, minute, second⟩

private theorem micros_of_readParts_nil {date : List Char} (read : readParts date [] = some written) :
    written.parts.micros = written.date.dayNumber * 86400000000 := by
  obtain ⟨ofDate, -, read⟩ := Option.bind_eq_some_iff.mp read
  cases read
  simp only [Parts.micros, Written.parts, Written.midnight, Written.fractionMicros, if_true, Option.getD_some]
  omega

/-! ## What is computed -/

section

variable {written : Written} (sensible : written.Plausible)

include sensible

/-- If the date and the time exist and the instant fits, then the seconds are computed
without overflow. -/
theorem bounds_of_fits (exist : written.parts.Exists) (fits : FitsI64 written.parts.micros) :
    written.date.year ≤ 2 ^ 52 ∧ -800000 ≤ written.date.dayNumber ∧ written.date.dayNumber ≤ 107000000 := by
  obtain ⟨year, month, day, -, -, -⟩ := sensible
  obtain ⟨-, hour, minute, second, micro⟩ := exist
  obtain ⟨-, upper⟩ := fits
  simp only [Parts.micros] at upper
  simp only [Written.parts] at hour minute second upper micro
  have early : -1 ≤ written.date.marchYear ∧ written.date.year - 1 ≤ written.date.marchYear := by
    unfold Civil.marchYear
    omega
  have months : 0 ≤ daysBefore written.date.marchMonth := by
    unfold daysBefore Civil.marchMonth
    omega
  have number : written.date.dayNumber ≤ 107000000 := by omega
  have isNumber : written.date.dayNumber = daysBeforeYear written.date.marchYear +
      daysBefore written.date.marchMonth + written.date.day - 1 - 719468 := rfl
  unfold daysBeforeYear at isNumber
  omega

private theorem days_eq (exist : written.parts.Exists) (fits : FitsI64 written.parts.micros) :
    daysFromCivil written.date.year written.date.month written.date.day = .ok written.date.dayNumber := by
  obtain ⟨year, -⟩ := bounds_of_fits sensible exist fits
  obtain ⟨notNegative, month, day, -⟩ := sensible
  exact daysFromCivil_eq (by omega) (by omega) (by omega)

end

section

variable {date rest : List Char} {written : Written} (read : readParts date rest = some written)

include read

theorem parseParts_eq (exist : written.parts.Exists) (fits : FitsI64 written.parts.micros) :
    parseParts date rest = .ok (some written.parts.micros) := by
  have sensible := plausible_readParts read
  obtain ⟨-, lower, upper⟩ := bounds_of_fits sensible exist fits
  rw [parseParts, read]
  simp only [days_eq sensible exist fits, ok_bind]
  split
  · rename_i noTime
    subst noTime
    rw [micros_of_readParts_nil read] at fits ⊢
    rw [I64.ofNat_eq, I64.of_mul fits.1 fits.2, I64.value_of, ok_bind]
    rfl
  · obtain ⟨-, hour, minute, second, micro⟩ := exist
    obtain ⟨-, small⟩ := fits
    simp only [Parts.micros] at small ⊢
    simp only [Written.parts] at hour minute second micro small ⊢
    simp (disch := omega) only [I64.ofNat_eq, I64.of_add, I64.of_mul, I64.value_of, ok_bind]
    rfl

end

end Ferrite
