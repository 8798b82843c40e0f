import Mathlib.Data.Nat.Digits.Defs
import Mathlib.Data.Int.Basic
import Mathlib.Tactic.IntervalCases

/-!
# Written numbers

Reading integers the way Rust's `from_str` and `from_str_radix` do: an optional
sign, then one or more digits of the base, in either case. What `Nat.toDigits`
writes is read back.
-/

namespace Ferrite.Logical.Numeral

/-- The value of a digit in some base up to 36. -/
def digitValue (char : Char) : Option Nat :=
  if '0' ≤ char ∧ char ≤ '9' then some (char.toNat - '0'.toNat)
  else if 'a' ≤ char ∧ char ≤ 'z' then some (char.toNat - 'a'.toNat + 10)
  else if 'A' ≤ char ∧ char ≤ 'Z' then some (char.toNat - 'A'.toNat + 10)
  else none

/-- Read digits from the most significant one on. -/
def readDigits (base : Nat) : Nat → List Char → Option Nat
  | value, [] => some value
  | value, char :: rest =>
    match digitValue char with
    | some digit => if digit < base then readDigits base (value * base + digit) rest else none
    | none => none

/-- An unsigned number: at least one digit, after an optional plus sign. -/
def readNat (base : Nat) : List Char → Option Nat
  | [] => none
  | '+' :: [] => none
  | '+' :: digits => readDigits base 0 digits
  | digits => readDigits base 0 digits

/-- A signed decimal number. -/
def readInt : List Char → Option Int
  | '-' :: [] => none
  | '-' :: digits => (readDigits 10 0 digits).map fun value : Nat => -(value : Int)
  | digits => (readNat 10 digits).map Int.ofNat

/-- A decimal number, with a minus sign in front of a negative one. -/
def writeInt (value : Int) : List Char :=
  if value < 0 then '-' :: Nat.toDigits 10 value.natAbs else Nat.toDigits 10 value.natAbs

variable {number base : Nat} {text : List Char}

theorem readDigits_append (base value : Nat) (first second : List Char) : readDigits base value (first ++ second) =
      (readDigits base value first).bind fun value => readDigits base value second := by
  induction first generalizing value with
  | nil => rfl
  | cons char rest ih =>
    simp only [List.cons_append, readDigits]
    cases digitValue char with
    | none => rfl
    | some digit =>
      by_cases small : digit < base
      · simp [small, ih]
      · simp [small]

private theorem isDigit_of_digitValue {char : Char} {digit : Nat} (value : digitValue char = some digit)
    (small : digit < 10) :
    char.isDigit = true := by
  unfold digitValue at value
  split at value
  · rename_i range
    simp only [Char.isDigit, Bool.and_eq_true, decide_eq_true_eq]
    exact range
  · split at value
    · cases value
      omega
    · split at value
      · cases value
        omega
      · cases value

private theorem isDigit_of_readDigits {value : Nat} {digits : List Char}
    (read : readDigits 10 value digits = some number) :
    ∀ char ∈ digits, char.isDigit = true := by
  induction digits generalizing value with
  | nil => simp
  | cons char rest ih =>
    rw [readDigits] at read
    split at read
    · rename_i digit isDigit
      split at read
      · rename_i small
        exact List.forall_mem_cons.mpr ⟨isDigit_of_digitValue isDigit small, ih read⟩
      · cases read
    · cases read

theorem digitValue_digitChar {digit : Nat} (small : digit < 16) : digitValue (Nat.digitChar digit) = some digit := by
  interval_cases digit <;> decide

/-- The digits of a number are read back, in every base a digit is written in. -/
theorem readDigits_toDigits (proper : 1 < base) (written : base ≤ 16) (number : Nat) :
    readDigits base 0 (Nat.toDigits base number) = some number := by
  induction number using Nat.strong_induction_on with
  | h number ih =>
    rcases Nat.lt_or_ge number base with small | large
    · rw [Nat.toDigits_of_lt_base small, readDigits, digitValue_digitChar (by omega)]
      simp [small, readDigits]
    · have digitSmall : number % base < base := Nat.mod_lt _ (by omega)
      rw [Nat.toDigits_of_base_le proper large, readDigits_append,
        ih _ (Nat.div_lt_self (by omega) proper), Option.bind_some, readDigits,
        digitValue_digitChar (by omega)]
      simp [digitSmall, readDigits, Nat.div_add_mod']

theorem readDigits_zeros (proper : 0 < base) (count : Nat) (digits : List Char) :
    readDigits base 0 (List.replicate count '0' ++ digits) = readDigits base 0 digits := by
  induction count with
  | zero => rfl
  | succ count ih =>
    have zero : digitValue '0' = some 0 := by decide
    simp [List.replicate_succ, readDigits, zero, proper, ih]

private theorem readNat_eq {char : Char} (digits : List Char) (plain : char ≠ '+') :
    readNat base (char :: digits) = readDigits base 0 (char :: digits) := by
  unfold readNat
  split <;> simp_all

/-- A number has digits after its sign, and nothing else. -/
theorem isDigit_of_readNat (read : readNat 10 text = some number) :
    ∃ char rest, text = char :: rest ∧ (char.isDigit = true ∨ char = '+' ∧ rest ≠ []) ∧
      ∀ char ∈ rest, char.isDigit = true := by
  unfold readNat at read
  split at read
  · cases read
  · cases read
  · rename_i digits notAlone
    exact ⟨'+', digits, rfl, .inr ⟨rfl, notAlone⟩, isDigit_of_readDigits read⟩
  · rename_i notEmpty _ _
    obtain ⟨char, rest, rfl⟩ := List.exists_cons_of_ne_nil notEmpty
    have digits := isDigit_of_readDigits read
    exact ⟨char, rest, rfl, .inl (digits char (by simp)), fun char member => digits char (by simp [member])⟩

theorem isDigit_of_readInt {number : Int} (read : readInt text = some number) :
    ∃ char rest, text = char :: rest ∧ (char.isDigit = true ∨ (char = '+' ∨ char = '-') ∧ rest ≠ []) ∧
      (0 ≤ number ∨ char = '-') ∧ ∀ char ∈ rest, char.isDigit = true := by
  unfold readInt at read
  split at read
  · cases read
  · rename_i digits notAlone
    obtain ⟨value, readValue, rfl⟩ := Option.map_eq_some_iff.mp read
    exact ⟨'-', digits, rfl, .inr ⟨.inr rfl, notAlone⟩, .inr rfl, isDigit_of_readDigits readValue⟩
  · obtain ⟨value, readValue, rfl⟩ := Option.map_eq_some_iff.mp read
    obtain ⟨char, rest, rfl, first, digits⟩ := isDigit_of_readNat readValue
    exact ⟨char, rest, rfl, first.imp_right (And.imp_left .inl), .inl (Int.natCast_nonneg value), digits⟩

theorem readInt_of_readNat (read : readNat 10 text = some number) : readInt text = some (number : Int) := by
  obtain ⟨char, rest, rfl, first, -⟩ := isDigit_of_readNat read
  have notMinus : char ≠ '-' := by
    rintro rfl
    revert first
    simp
  unfold readInt
  split <;> simp_all

theorem readNat_of_readDigits {digits : List Char} (nonempty : digits ≠ [])
    (read : readDigits base 0 digits = some number) : readNat base digits = some number := by
  obtain ⟨char, rest, rfl⟩ := List.exists_cons_of_ne_nil nonempty
  have plain : char ≠ '+' := by
    rintro rfl
    have noDigit : digitValue '+' = none := by decide
    simp [readDigits, noDigit] at read
  rw [readNat_eq rest plain, read]

theorem readInt_writeInt (value : Int) : readInt (writeInt value) = some value := by
  have read := readDigits_toDigits (show 1 < 10 by decide) (by decide) value.natAbs
  have digits : ∀ char ∈ Nat.toDigits 10 value.natAbs, char.isDigit = true := fun char member =>
    Nat.isDigit_of_mem_toDigits (show 0 < 10 by decide) (by decide) member
  obtain ⟨char, rest, split⟩ := List.exists_cons_of_ne_nil
    (Nat.toDigits_ne_nil : Nat.toDigits 10 value.natAbs ≠ [])
  have isDigit : char.isDigit = true := digits char (by simp [split])
  have notPlus : char ≠ '+' := by rintro rfl; exact absurd isDigit (by decide)
  have notMinus : char ≠ '-' := by rintro rfl; exact absurd isDigit (by decide)
  rw [split] at read
  rw [writeInt]
  by_cases negative : value < 0
  · rw [if_pos negative, split]
    change (readDigits 10 0 (char :: rest)).map (fun value : Nat => -(value : Int)) = some value
    rw [read, Option.map_some, Option.some.injEq]
    omega
  · rw [if_neg negative, split, readInt, readNat_eq rest notPlus, read]
    · simp only [Option.map_some, Option.some.injEq, Int.ofNat_eq_natCast]
      omega
    · intro empty
      exact notMinus (List.cons.inj empty).1
    · intro others same
      exact notMinus (List.cons.inj same).1

end Ferrite.Logical.Numeral
