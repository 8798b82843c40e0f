import Mathlib.Data.List.DropRight
import Mathlib.Data.List.Infix
import Ferrite.Logical.Numeral

/-!
# Cutting texts

The ways of Rust's `str` to take a text apart: trimming, and cutting at the first or at
every occurrence of a separator.
-/

namespace Ferrite.Logical.Text

/-- The white space of Unicode. -/
def isWhitespace (char : Char) : Bool :=
  (0x09 ≤ char.toNat && char.toNat ≤ 0x0D) || char.toNat == 0x20 || char.toNat == 0x85 || char.toNat == 0xA0 ||
    char.toNat == 0x1680 || (0x2000 ≤ char.toNat && char.toNat ≤ 0x200A) || char.toNat == 0x2028 ||
    char.toNat == 0x2029 || char.toNat == 0x202F || char.toNat == 0x205F || char.toNat == 0x3000

def trim (text : List Char) : List Char := (text.dropWhile isWhitespace).rdropWhile isWhitespace

variable {char : Char} {trims : Char → Bool} {third : List Char}

/-- A text without white space at its ends stays as it is. -/
theorem trim_eq {first last : Char} (middle : List Char) (noFirst : isWhitespace first = false)
    (noLast : isWhitespace last = false) : trim (first :: (middle ++ [last])) = first :: (middle ++ [last]) := by
  rw [trim, List.dropWhile_cons_of_neg (by simp [noFirst]), ← List.cons_append]
  exact List.rdropWhile_concat_neg _ _ _ (by simp [noLast])

theorem isWhitespace_of_isDigit (digit : char.isDigit = true) : isWhitespace char = false := by
  simp only [Char.isDigit, Bool.and_eq_true, decide_eq_true_eq, UInt32.le_iff_toNat_le] at digit
  have lower : 48 ≤ char.toNat := digit.1
  have upper : char.toNat ≤ 57 := digit.2
  simp only [isWhitespace, Bool.or_eq_false_iff, Bool.and_eq_false_iff, decide_eq_false_iff_not, beq_eq_false_iff_ne]
  omega

/-- What stands before and after the first separator. -/
def splitOnce (separates : Char → Bool) : List Char → Option (List Char × List Char)
  | [] => none
  | char :: rest =>
    if separates char then some ([], rest) else (splitOnce separates rest).map (Prod.map (char :: ·) id)

variable {separates : Char → Bool} {text first second : List Char}

theorem splitOnce_eq_none : splitOnce separates text = none ↔ ∀ char ∈ text, separates char = false := by
  induction text with
  | nil => simp [splitOnce]
  | cons char rest ih =>
    rw [splitOnce, List.forall_mem_cons, ← ih]
    cases separates char <;> simp

theorem splitOnce_eq_some : splitOnce separates text = some (first, second) ↔
    ∃ char, text = first ++ char :: second ∧ separates char = true ∧ ∀ char ∈ first, separates char = false := by
  induction text generalizing first with
  | nil => simp [splitOnce]
  | cons head rest ih =>
    rw [splitOnce]
    cases isSeparator : separates head with
    | true =>
      constructor
      · intro same
        cases same
        exact ⟨head, rfl, isSeparator, by simp⟩
      · rintro ⟨char, cut, _, before⟩
        cases first with
        | nil =>
          cases cut
          rfl
        | cons other more =>
          cases cut
          simp_all
    | false =>
      simp only [Bool.false_eq_true, if_false, Option.map_eq_some_iff, Prod.exists, Prod.map_apply, id_eq, Prod.mk.injEq]
      constructor
      · rintro ⟨before, after, cut, rfl, rfl⟩
        obtain ⟨char, rfl, isChar, none⟩ := ih.mp cut
        exact ⟨char, rfl, isChar, by simp_all⟩
      · rintro ⟨char, cut, isChar, before⟩
        cases first with
        | nil =>
          cases cut
          simp_all
        | cons other more =>
          cases cut
          exact ⟨more, second, ih.mpr ⟨char, rfl, isChar, by simp_all⟩, rfl, rfl⟩

/-- Trimming the end of a text trims what comes after the separator. -/
theorem rdropWhile_append_cons (kept : trims char = false) :
    (first ++ char :: second).rdropWhile trims = first ++ char :: second.rdropWhile trims := by
  induction second using List.reverseRecOn with
  | nil =>
    rw [List.rdropWhile_nil]
    exact List.rdropWhile_concat_neg _ _ _ (by simp [kept])
  | append_singleton rest last ih =>
    rw [← List.cons_append, ← List.append_assoc]
    cases trimmed : trims last with
    | true => rw [List.rdropWhile_concat_pos _ _ _ trimmed, List.rdropWhile_concat_pos _ _ _ trimmed, ih]
    | false =>
      rw [List.rdropWhile_concat_neg _ _ _ (by simp [trimmed]), List.rdropWhile_concat_neg _ _ _ (by simp [trimmed])]
      simp

theorem rdropWhile_eq_self (none : ∀ char ∈ text, trims char = false) : text.rdropWhile trims = text :=
  List.rdropWhile_eq_self_iff.mpr fun notEmpty => by simp [none _ (List.getLast_mem notEmpty)]

/-! ## Every separator -/

variable {separator : Char}

/-- A further character starts a new part or belongs to the first one. -/
theorem splitOn_cons (separator char : Char) (rest : List Char) :
    ∃ part parts, rest.splitOn separator = part :: parts ∧
      (char :: rest).splitOn separator = if char = separator then [] :: part :: parts else (char :: part) :: parts := by
  obtain ⟨part, parts, cut⟩ := List.exists_cons_of_ne_nil (List.splitOn_ne_nil separator rest)
  refine ⟨part, parts, cut, ?_⟩
  rw [List.splitOn_cons_eq_if_modifyHead, cut, List.modifyHead_cons]
  simp

theorem not_mem_of_mem_splitOn {part : List Char} (member : part ∈ text.splitOn separator) : separator ∉ part := by
  induction text generalizing part with
  | nil => simp_all
  | cons char rest ih =>
    obtain ⟨head, tail, cut, cons⟩ := splitOn_cons separator char rest
    rw [cut] at ih
    rw [cons] at member
    split at member
    · grind
    · grind

theorem splitOn_triple (notFirst : separator ∉ first) (notSecond : separator ∉ second) (notThird : separator ∉ third) :
    (first ++ separator :: (second ++ separator :: third)).splitOn separator = [first, second, third] := by
  rw [List.splitOn_append_cons_self_of_not_mem notFirst, List.splitOn_append_cons_self_of_not_mem notSecond,
    List.splitOn_eq_singleton notThird]

end Ferrite.Logical.Text
