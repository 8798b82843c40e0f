import Ferrite.Logical.Association
import Mathlib.Data.List.Nodup

/-!
# Tables with distinct keys

A finite table as an association list that holds each key once, with the updates a hash
map offers and what each of them leaves to be found.
-/

namespace Ferrite.Logical

/-- Keys with their values, each key once. -/
structure Table (κ α : Type) where
  entries : List (κ × α)
  distinct : (entries.map Prod.fst).Nodup

namespace Table

variable {κ α : Type}

def empty : Table κ α := ⟨[], List.nodup_nil⟩

def size (table : Table κ α) : Nat := table.entries.length

/-- Keep what a function keeps, changed as it says. -/
def retain (table : Table κ α) (keep : α → Option α) : Table κ α where
  entries := table.entries.filterMap fun entry => (keep entry.2).map (Prod.mk entry.1)
  distinct := by
    refine List.Nodup.sublist ?_ table.distinct
    induction table.entries with
    | nil => exact List.Sublist.refl _
    | cons entry rest ih =>
      rw [List.filterMap_cons]
      cases keep entry.2 with
      | none => exact ih.cons _
      | some value => exact ih.cons_cons _

/-- A table all of whose values are kept as they are stays as it is. -/
theorem retain_eq_self {table : Table κ α} {keep : α → Option α}
    (all : ∀ entry ∈ table.entries, keep entry.2 = some entry.2) : table.retain keep = table := by
  obtain ⟨entries, distinct⟩ := table
  have same : (entries.filterMap fun entry => (keep entry.2).map (Prod.mk entry.1)) = entries := by
    have each : ∀ entry ∈ entries, (keep entry.2).map (Prod.mk entry.1) = some entry := by
      intro entry member
      rw [all entry member]
      rfl
    rw [List.filterMap_congr each, List.filterMap_some]
  simp only [retain, same]

variable [DecidableEq κ]

def find (table : Table κ α) (key : κ) : Option α := table.entries.lookup key

def add (table : Table κ α) (key : κ) (value : α) (absent : table.find key = none) : Table κ α where
  entries := (key, value) :: table.entries
  distinct := by
    refine List.nodup_cons.mpr ⟨fun listed => ?_, table.distinct⟩
    have found := (mem_keys_iff _ _).mp listed
    rw [show table.entries.lookup key = none from absent] at found
    cases found

/-- Change the value at a key, if there is one. -/
def alter (table : Table κ α) (key : κ) (change : α → α) : Table κ α where
  entries := table.entries.map fun entry => if entry.1 = key then (entry.1, change entry.2) else entry
  distinct := by
    have keys : (table.entries.map fun entry => if entry.1 = key then (entry.1, change entry.2) else entry).map
        Prod.fst = table.entries.map Prod.fst := by
      rw [List.map_map]
      refine List.map_congr_left fun entry _ => ?_
      simp only [Function.comp_apply]
      split <;> rfl
    rw [keys]
    exact table.distinct

def erase (table : Table κ α) (key : κ) : Table κ α where
  entries := table.entries.filter fun entry => entry.1 ≠ key
  distinct := table.distinct.sublist (List.filter_sublist.map _)

theorem find_add {table : Table κ α} {key : κ} {value : α} (absent : table.find key = none) (probe : κ) :
    (table.add key value absent).find probe = if probe = key then some value else table.find probe := by
  rw [find, add, List.lookup_cons]
  by_cases same : probe = key
  · rw [if_pos same, beq_iff_eq.mpr same]
  · rw [if_neg same, beq_false_of_ne same]
    rfl

/-- Changing one entry leaves the others. -/
theorem find_alter (table : Table κ α) (key : κ) (change : α → α) (probe : κ) :
    (table.alter key change).find probe = if probe = key then (table.find probe).map change else table.find probe :=
  lookup_map_at table.entries key probe change

theorem find_erase (table : Table κ α) (key probe : κ) :
    (table.erase key).find probe = if probe = key then none else table.find probe :=
  lookup_filter_ne table.entries key probe

/-- Of a key that is held once the value is kept or gone. -/
theorem find_retain (table : Table κ α) (keep : α → Option α) (probe : κ) :
    (table.retain keep).find probe = (table.find probe).bind keep := by
  obtain ⟨entries, distinct⟩ := table
  simp only [find, retain]
  induction entries with
  | nil => rfl
  | cons entry rest ih =>
    obtain ⟨other, value⟩ := entry
    rw [List.map_cons, List.nodup_cons] at distinct
    rw [List.filterMap_cons, List.lookup_cons]
    by_cases here : probe = other
    · subst here
      have unlisted : rest.lookup probe = none := by
        have absent := mt (mem_keys_iff rest probe).mpr distinct.1
        exact Option.not_isSome_iff_eq_none.mp absent
      cases kept : keep value with
      | none =>
        rw [beq_self_eq_true]
        simp only [kept, Option.map_none, Option.bind_some]
        rw [ih distinct.2, unlisted]
        rfl
      | some changed =>
        rw [beq_self_eq_true]
        simp [kept]
    · rw [beq_false_of_ne here]
      cases kept : keep value with
      | none => exact ih distinct.2
      | some changed =>
        simp only [Option.map_some]
        rw [List.lookup_cons, beq_false_of_ne here]
        exact ih distinct.2

@[simp] theorem size_alter (table : Table κ α) (key : κ) (change : α → α) :
    (table.alter key change).size = table.size := List.length_map _

theorem size_add {table : Table κ α} {key : κ} {value : α} (absent : table.find key = none) :
    (table.add key value absent).size = table.size + 1 := rfl

end Table
end Ferrite.Logical
