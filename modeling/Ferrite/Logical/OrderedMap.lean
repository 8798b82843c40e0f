import Mathlib.Data.List.Basic
import Mathlib.Order.Lattice

/-!
# Finite maps kept in key order

An `OrderedMap` is the list of its bindings, in strictly increasing key order.
Ordered traversal is then traversal of the list, and `seek` is the primitive a
cursor is built on: the binding with the least key at or after a position.
-/

namespace Ferrite.Logical

/-- Bindings in strictly increasing key order; the order is part of the value. -/
structure OrderedMap (κ α : Type) [LinearOrder κ] where
  entries : List (κ × α)
  ordered : entries.Pairwise fun left right => left.1 < right.1

namespace OrderedMap

variable {κ α : Type} [LinearOrder κ]

@[ext] theorem ext {first second : OrderedMap κ α} (same : first.entries = second.entries) :
    first = second := by
  cases first
  cases second
  cases same
  rfl

/-- The map with no binding. -/
def empty : OrderedMap κ α := ⟨[], List.Pairwise.nil⟩

/-- The value bound to `key`. -/
def find? (map : OrderedMap κ α) (key : κ) : Option α := (map.entries.find? fun entry => entry.1 = key).map Prod.snd

/-- The binding with the least key that is not below `start`. -/
def seek (map : OrderedMap κ α) (start : κ) : Option (κ × α) := map.entries.find? fun entry => start ≤ entry.1

/-- Put a binding at its place, replacing an equal key. -/
def insertEntry (key : κ) (value : α) : List (κ × α) → List (κ × α)
  | [] => [(key, value)]
  | (other, held) :: rest =>
    if key < other then (key, value) :: (other, held) :: rest
    else if key = other then (key, value) :: rest
    else (other, held) :: insertEntry key value rest

private theorem mem_insertEntry {key : κ} {value : α} {entries : List (κ × α)} {entry : κ × α}
    (member : entry ∈ insertEntry key value entries) : entry = (key, value) ∨ entry ∈ entries := by
  induction entries with
  | nil => simpa [insertEntry] using member
  | cons head rest ih =>
    obtain ⟨other, held⟩ := head
    unfold insertEntry at member
    split at member
    · simpa using member
    · split at member
      · rcases List.mem_cons.mp member with equal | inRest
        · exact Or.inl equal
        · exact Or.inr (List.mem_cons_of_mem _ inRest)
      · rcases List.mem_cons.mp member with equal | inRest
        · exact Or.inr (equal ▸ List.mem_cons_self)
        · rcases ih inRest with equal | older
          · exact Or.inl equal
          · exact Or.inr (List.mem_cons_of_mem _ older)

private theorem insertEntry_ordered {key : κ} {value : α} {entries : List (κ × α)}
    (ordered : entries.Pairwise fun left right => left.1 < right.1) :
    (insertEntry key value entries).Pairwise fun left right => left.1 < right.1 := by
  induction entries with
  | nil => simp [insertEntry]
  | cons head rest ih =>
    obtain ⟨other, held⟩ := head
    obtain ⟨headBelow, restOrdered⟩ := List.pairwise_cons.mp ordered
    unfold insertEntry
    split
    · rename_i below
      refine List.pairwise_cons.mpr ⟨?_, ordered⟩
      intro entry member
      rcases List.mem_cons.mp member with equal | inRest
      · exact equal ▸ below
      · exact lt_trans below (headBelow entry inRest)
    · split
      · rename_i equal
        exact List.pairwise_cons.mpr ⟨fun entry member => equal ▸ headBelow entry member, restOrdered⟩
      · rename_i notBelow notEqual
        refine List.pairwise_cons.mpr ⟨?_, ih restOrdered⟩
        intro entry member
        rcases mem_insertEntry member with equal | inRest
        · subst equal
          exact lt_of_le_of_ne (not_lt.mp notBelow) (Ne.symm notEqual)
        · exact headBelow entry inRest

/-- Bind `key` to `value`, replacing an older binding. -/
def insert (map : OrderedMap κ α) (key : κ) (value : α) : OrderedMap κ α :=
  ⟨insertEntry key value map.entries, insertEntry_ordered map.ordered⟩

/-- Remove the binding of `key`, if there is one. -/
def erase (map : OrderedMap κ α) (key : κ) : OrderedMap κ α :=
  ⟨map.entries.filter fun entry => entry.1 ≠ key, map.ordered.filter _⟩

@[simp] theorem find?_empty (key : κ) : (empty : OrderedMap κ α).find? key = none := rfl

private theorem find?_insertEntry (key probe : κ) (value : α) (entries : List (κ × α)) :
    ((insertEntry key value entries).find? fun entry => entry.1 = probe).map Prod.snd =
      if probe = key then some value
      else (entries.find? fun entry => entry.1 = probe).map Prod.snd := by
  induction entries with
  | nil => by_cases same : probe = key <;> simp [insertEntry, same, eq_comm]
  | cons head rest ih =>
    obtain ⟨other, held⟩ := head
    unfold insertEntry
    split
    · by_cases same : probe = key
      · simp [same]
      · simp [List.find?_cons, same, Ne.symm same]
    · split
      · rename_i equal
        subst equal
        by_cases same : probe = key
        · simp [same]
        · simp [same, Ne.symm same]
      · rename_i notEqual
        by_cases atOther : other = probe
        · subst atOther
          simp [Ne.symm notEqual]
        · simpa [List.find?_cons, atOther] using ih

/-- Reading after a write sees the write at its key and nothing else changed. -/
@[simp] theorem find?_insert (map : OrderedMap κ α) (key probe : κ) (value : α) :
    (map.insert key value).find? probe = if probe = key then some value else map.find? probe :=
  find?_insertEntry key probe value map.entries

@[simp] theorem find?_erase (map : OrderedMap κ α) (key probe : κ) :
    (map.erase key).find? probe = if probe = key then none else map.find? probe := by
  simp only [find?, erase, List.find?_filter]
  split
  · rename_i same
    subst same
    rw [Option.map_eq_none_iff]
    exact List.find?_eq_none.mpr fun entry _ => by simp
  · rename_i other
    congr 2
    funext entry
    by_cases here : entry.1 = probe
    · simp [here, other]
    · simp [here]

/-- The entries are the bindings that are found. -/
theorem mem_entries_iff (map : OrderedMap κ α) {key : κ} {value : α} :
    (key, value) ∈ map.entries ↔ map.find? key = some value := by
  obtain ⟨entries, ordered⟩ := map
  simp only [find?]
  induction entries with
  | nil => simp
  | cons head rest ih =>
    obtain ⟨other, held⟩ := head
    obtain ⟨headBelow, restOrdered⟩ := List.pairwise_cons.mp ordered
    by_cases atHead : other = key
    · subst atHead
      have notInRest : (other, value) ∉ rest := fun member =>
        lt_irrefl other (headBelow (other, value) member)
      simp [notInRest, eq_comm]
    · have := ih restOrdered
      simp [atHead, Ne.symm atHead, this]

theorem mem_keys_iff (map : OrderedMap κ α) (key : κ) :
    key ∈ map.entries.map Prod.fst ↔ (map.find? key).isSome = true := by
  rw [List.mem_map, Option.isSome_iff_exists]
  constructor
  · rintro ⟨⟨other, value⟩, member, rfl⟩
    exact ⟨value, map.mem_entries_iff.mp member⟩
  · rintro ⟨value, found⟩
    exact ⟨(key, value), map.mem_entries_iff.mpr found, rfl⟩

theorem keys_ordered (map : OrderedMap κ α) : (map.entries.map Prod.fst).Pairwise (· < ·) :=
  List.pairwise_map.mpr map.ordered

/-! ### Bindings around a key -/

section

variable {left right : List (κ × α)} {key : κ}

/-- A new key goes between the smaller and the larger ones. -/
theorem insertEntry_split (value : α) (below : ∀ entry ∈ left, entry.1 < key) (above : ∀ entry ∈ right, key < entry.1) :
    insertEntry key value (left ++ right) = left ++ (key, value) :: right := by
  induction left with
  | nil =>
    cases right with
    | nil => rfl
    | cons head rest => exact if_pos (above head List.mem_cons_self)
  | cons head left ih =>
    have small := below head List.mem_cons_self
    rw [List.cons_append, insertEntry, if_neg (lt_asymm small), if_neg (ne_of_gt small),
      ih fun entry member => below entry (List.mem_cons_of_mem _ member)]
    rfl

theorem insertEntry_replace (old value : α) (below : ∀ entry ∈ left, entry.1 < key) :
    insertEntry key value (left ++ (key, old) :: right) = left ++ (key, value) :: right := by
  induction left with
  | nil => rw [List.nil_append, insertEntry, if_neg (lt_irrefl key), if_pos rfl, List.nil_append]
  | cons head left ih =>
    have small := below head List.mem_cons_self
    rw [List.cons_append, insertEntry, if_neg (lt_asymm small), if_neg (ne_of_gt small),
      ih fun entry member => below entry (List.mem_cons_of_mem _ member)]
    rfl

theorem filter_split (value : α) (below : ∀ entry ∈ left, entry.1 < key)
    (above : ∀ entry ∈ right, key < entry.1) :
    ((left ++ (key, value) :: right).filter fun entry => entry.1 ≠ key) = left ++ right := by
  have keepLeft : left.filter (fun entry => decide (entry.1 ≠ key)) = left :=
    List.filter_eq_self.mpr fun entry member => decide_eq_true (ne_of_lt (below entry member))
  have keepRight : right.filter (fun entry => decide (entry.1 ≠ key)) = right :=
    List.filter_eq_self.mpr fun entry member => decide_eq_true (ne_of_gt (above entry member))
  rw [List.filter_append, List.filter_cons_of_neg (by simp), keepLeft, keepRight]

theorem filter_absent (below : ∀ entry ∈ left, entry.1 < key)
    (above : ∀ entry ∈ right, key < entry.1) :
    ((left ++ right).filter fun entry => entry.1 ≠ key) = left ++ right := by
  refine List.filter_eq_self.mpr fun entry member => decide_eq_true ?_
  rcases List.mem_append.mp member with inLeft | inRight
  · exact ne_of_lt (below entry inLeft)
  · exact ne_of_gt (above entry inRight)

/-- A binding among the entries is found. -/
theorem find?_present (map : OrderedMap κ α) {value : α}
    (split : map.entries = left ++ (key, value) :: right) : map.find? key = some value :=
  map.mem_entries_iff.mp (by rw [split]; simp)

theorem find?_absent (map : OrderedMap κ α) (split : map.entries = left ++ right)
    (below : ∀ entry ∈ left, entry.1 < key) (above : ∀ entry ∈ right, key < entry.1) : map.find? key = none := by
  rw [find?, split, Option.map_eq_none_iff]
  refine List.find?_eq_none.mpr fun entry member => ?_
  rcases List.mem_append.mp member with inLeft | inRight
  · simp [ne_of_lt (below entry inLeft)]
  · simp [ne_of_gt (above entry inRight)]

theorem seek_split (map : OrderedMap κ α) {entry : κ × α} (split : map.entries = left ++ entry :: right)
    (below : ∀ entry ∈ left, entry.1 < key) (above : key ≤ entry.1) : map.seek key = some entry := by
  have none : left.find? (fun entry => decide (key ≤ entry.1)) = none :=
    List.find?_eq_none.mpr fun other member => by simp [below other member]
  rw [seek, split, List.find?_append, none, List.find?_cons_of_pos (by simpa using above)]
  rfl

theorem seek_eq_none (map : OrderedMap κ α) (below : ∀ entry ∈ map.entries, entry.1 < key) : map.seek key = none :=
  List.find?_eq_none.mpr fun other member => by simp [below other member]

end

end OrderedMap
end Ferrite.Logical
