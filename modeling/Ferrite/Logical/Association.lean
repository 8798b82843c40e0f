import Mathlib.Data.List.Basic

/-!
# Association lists

`List.lookup` against the updates a small table goes through: dropping a key and
changing the value held at a key.
-/

namespace Ferrite.Logical

variable {κ α : Type} [DecidableEq κ]

/-- Without a key, every other key is found as before. -/
theorem lookup_filter_ne (entries : List (κ × α)) (key probe : κ) :
    (entries.filter fun entry => entry.1 ≠ key).lookup probe =
      if probe = key then none else entries.lookup probe := by
  induction entries with
  | nil => simp
  | cons head rest ih =>
    obtain ⟨other, held⟩ := head
    by_cases dropped : other = key
    · subst dropped
      by_cases atKey : probe = other
      · simpa [atKey] using ih
      · have notOther : (probe == other) = false := by simpa using atKey
        simpa [List.lookup_cons, notOther, atKey] using ih
    · by_cases atOther : probe = other
      · subst atOther
        simp [dropped]
      · have notOther : (probe == other) = false := by simpa using atOther
        simpa [List.lookup_cons, notOther, dropped] using ih

/-- Changing the value held at a key is seen at exactly that key. -/
theorem lookup_map_at (entries : List (κ × α)) (key probe : κ) (change : α → α) :
    (entries.map fun entry => if entry.1 = key then (entry.1, change entry.2) else entry).lookup
        probe =
      if probe = key then (entries.lookup probe).map change else entries.lookup probe := by
  induction entries with
  | nil => simp
  | cons head rest ih =>
    obtain ⟨other, held⟩ := head
    by_cases atOther : probe = other
    · subst atOther
      by_cases atKey : probe = key <;> simp [atKey]
    · have notOther : (probe == other) = false := by simpa using atOther
      by_cases changed : other = key
      · subst changed
        simpa [List.lookup_cons, notOther] using ih
      · simpa [List.lookup_cons, notOther, changed] using ih

theorem mem_of_lookup {entries : List (κ × α)} {key : κ} {value : α}
    (found : entries.lookup key = some value) : (key, value) ∈ entries := by
  obtain ⟨before, after, split, -⟩ := List.lookup_eq_some_iff.mp found
  simp [split]

theorem mem_keys_iff (entries : List (κ × α)) (key : κ) :
    key ∈ entries.map Prod.fst ↔ (entries.lookup key).isSome = true := by
  rw [List.lookup_isSome_iff, List.mem_map]
  refine exists_congr fun entry => and_congr_right fun _ => ?_
  rw [beq_iff_eq, eq_comm]

end Ferrite.Logical
