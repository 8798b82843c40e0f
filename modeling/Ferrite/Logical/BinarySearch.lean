import Mathlib.Data.List.Basic
import Mathlib.Order.Lattice

/-!
# Binary search

A search over positions below a count, given what stands at each position. It finds the
position of a key, or the position at which the key would have to stand.
-/

namespace Ferrite.Logical

variable {κ : Type} [LinearOrder κ]

/-- The loop: the key can only be at a position from `lo` on and below `hi`. -/
def searchLoop (probe : Nat → κ) (key : κ) : Nat → Nat → Nat → Except Nat Nat
  | 0, lo, _ => .error lo
  | fuel + 1, lo, hi =>
    if lo < hi then
      let mid := (lo + hi) / 2
      if probe mid < key then searchLoop probe key fuel (mid + 1) hi
      else if key < probe mid then searchLoop probe key fuel lo mid
      else .ok mid
    else .error lo

/-- The position of the key, or else the position where it belongs. -/
def search (probe : Nat → κ) (count : Nat) (key : κ) : Except Nat Nat := searchLoop probe key count 0 count

/-- What a result means for the positions of a window. -/
def SearchResult (probe : Nat → κ) (key : κ) (lo hi : Nat) : Except Nat Nat → Prop
  | .ok index => lo ≤ index ∧ index < hi ∧ probe index = key
  | .error index => lo ≤ index ∧ index ≤ hi ∧ (∀ other, lo ≤ other → other < index → probe other < key) ∧
      ∀ other, index ≤ other → other < hi → key < probe other

private theorem searchLoop_result {probe : Nat → κ} {key : κ} {fuel lo hi : Nat} (window : lo ≤ hi)
    (enough : hi - lo ≤ fuel)
    (ordered : ∀ first second, lo ≤ first → first < second → second < hi → probe first < probe second) :
    SearchResult probe key lo hi (searchLoop probe key fuel lo hi) := by
  induction fuel generalizing lo hi with
  | zero => exact ⟨le_refl lo, window, fun _ _ _ => by omega, fun _ _ _ => by omega⟩
  | succ fuel ih =>
    rw [searchLoop]
    by_cases inside : lo < hi
    · rw [if_pos inside]
      have bounds : lo ≤ (lo + hi) / 2 ∧ (lo + hi) / 2 < hi := by omega
      generalize (lo + hi) / 2 = mid at bounds
      obtain ⟨fromLo, belowHi⟩ := bounds
      dsimp only
      split
      · rename_i small
        have rest := @ih (mid + 1) hi belowHi (by omega) fun first second above =>
          ordered first second (by omega)
        -- every position up to `mid` holds something below the key
        have before : ∀ other, lo ≤ other → other ≤ mid → probe other < key := by
          intro other above upTo
          rcases Nat.lt_or_eq_of_le upTo with less | rfl
          · exact lt_trans (ordered other mid above less belowHi) small
          · exact small
        cases found : searchLoop probe key fuel (mid + 1) hi with
        | ok index =>
          rw [found] at rest
          obtain ⟨above, below, here⟩ := rest
          exact ⟨by omega, below, here⟩
        | error index =>
          rw [found] at rest
          obtain ⟨above, below, left, right⟩ := rest
          refine ⟨by omega, below, fun other fromLow less => ?_, right⟩
          rcases Nat.lt_or_ge mid other with past | upTo
          · exact left other past less
          · exact before other fromLow upTo
      · split
        · rename_i large
          have rest := @ih lo mid fromLo (by omega) fun first second above less below =>
            ordered first second above less (by omega)
          -- every position from `mid` on holds something above the key
          have after : ∀ other, mid ≤ other → other < hi → key < probe other := by
            intro other upFrom below
            rcases Nat.lt_or_eq_of_le upFrom with less | rfl
            · exact lt_trans large (ordered mid other fromLo less below)
            · exact large
          cases found : searchLoop probe key fuel lo mid with
          | ok index =>
            rw [found] at rest
            obtain ⟨above, below, here⟩ := rest
            exact ⟨above, by omega, here⟩
          | error index =>
            rw [found] at rest
            obtain ⟨above, below, left, right⟩ := rest
            refine ⟨above, by omega, left, fun other upFrom less => ?_⟩
            rcases Nat.lt_or_ge other mid with before | past
            · exact right other upFrom before
            · exact after other past less
        · rename_i notSmall notLarge
          exact ⟨fromLo, belowHi, le_antisymm (not_lt.mp notLarge) (not_lt.mp notSmall)⟩
    · rw [if_neg inside]
      exact ⟨le_refl lo, window, fun _ _ _ => by omega, fun _ _ _ => by omega⟩

variable {probe : Nat → κ} {keys left right : List κ} {key : κ}

private theorem search_result (key : κ) (ordered : keys.Pairwise (· < ·))
    (reads : ∀ index (inside : index < keys.length), probe index = keys[index]) :
    SearchResult probe key 0 keys.length (search probe keys.length key) := by
  refine searchLoop_result (Nat.zero_le _) (by omega) fun first second _ less below => ?_
  rw [reads first (by omega), reads second below]
  exact List.pairwise_iff_getElem.mp ordered first second (by omega) below less

theorem search_of_mem (ordered : keys.Pairwise (· < ·))
    (reads : ∀ index (inside : index < keys.length), probe index = keys[index])
    (split : keys = left ++ key :: right) : search probe keys.length key = .ok left.length := by
  have result := search_result key ordered reads
  have inside : left.length < keys.length := by simp [split]
  have stands : probe left.length = key := by
    rw [reads left.length inside]
    simp [split]
  have increasing := List.pairwise_iff_getElem.mp ordered
  cases found : search probe keys.length key with
  | ok index =>
    rw [found] at result
    obtain ⟨-, below, here⟩ := result
    rw [reads index below] at here
    rw [reads left.length inside] at stands
    rcases lt_trichotomy index left.length with less | same | more
    · exact absurd (here.trans stands.symm) (ne_of_lt (increasing _ _ below inside less))
    · rw [same]
    · exact absurd (stands.trans here.symm) (ne_of_lt (increasing _ _ inside below more))
  | error index =>
    rw [found] at result
    obtain ⟨-, -, before, after⟩ := result
    rcases Nat.lt_or_ge left.length index with less | more
    · exact absurd (before _ (Nat.zero_le _) less) (by rw [stands]; exact lt_irrefl key)
    · exact absurd (after _ more inside) (by rw [stands]; exact lt_irrefl key)

/-- A key that is not in the list belongs between the smaller and the larger ones. -/
theorem search_of_split (ordered : keys.Pairwise (· < ·))
    (reads : ∀ index (inside : index < keys.length), probe index = keys[index])
    (split : keys = left ++ right) (below : ∀ other ∈ left, other < key) (above : ∀ other ∈ right, key < other) :
    search probe keys.length key = .error left.length := by
  have result := search_result key ordered reads
  have small : ∀ index, index < left.length → probe index < key := by
    intro index inLeft
    rw [reads index (by rw [split, List.length_append]; omega)]
    simp only [split, List.getElem_append_left inLeft]
    exact below _ (List.getElem_mem inLeft)
  have large : ∀ index, left.length ≤ index → index < keys.length → key < probe index := by
    intro index past inside
    rw [reads index inside]
    simp only [split, List.getElem_append_right past]
    exact above _ (List.getElem_mem _)
  cases found : search probe keys.length key with
  | ok index =>
    rw [found] at result
    obtain ⟨-, inside, here⟩ := result
    rcases Nat.lt_or_ge index left.length with less | more
    · exact absurd here (ne_of_lt (small index less))
    · exact absurd here (ne_of_gt (large index more inside))
  | error index =>
    rw [found] at result
    obtain ⟨-, inside, before, after⟩ := result
    rcases lt_trichotomy index left.length with less | same | more
    · have wrong := after index (le_refl _) (by rw [split, List.length_append]; omega)
      exact absurd wrong (lt_asymm (small index less))
    · rw [same]
    · have wrong := before left.length (Nat.zero_le _) more
      exact absurd wrong (lt_asymm (large left.length (le_refl _) (by omega)))

/-- Any key splits an ordered list, with the key in the middle or missing there. -/
theorem exists_split (ordered : keys.Pairwise (· < ·)) (key : κ) :
    ∃ left right, (keys = left ++ key :: right ∨ keys = left ++ right) ∧
      (∀ other ∈ left, other < key) ∧ ∀ other ∈ right, key < other := by
  induction keys with
  | nil => exact ⟨[], [], Or.inr rfl, by simp, by simp⟩
  | cons head rest ih =>
    obtain ⟨headBelow, restOrdered⟩ := List.pairwise_cons.mp ordered
    rcases lt_trichotomy head key with less | rfl | more
    · obtain ⟨left, right, split, below, above⟩ := ih restOrdered
      refine ⟨head :: left, right, ?_, ?_, above⟩
      · rcases split with found | absent
        · exact Or.inl (by rw [found, List.cons_append])
        · exact Or.inr (by rw [absent, List.cons_append])
      · intro other member
        rcases List.mem_cons.mp member with rfl | inLeft
        · exact less
        · exact below other inLeft
    · exact ⟨[], rest, Or.inl rfl, by simp, headBelow⟩
    · refine ⟨[], head :: rest, Or.inr rfl, by simp, fun other member => ?_⟩
      rcases List.mem_cons.mp member with rfl | inRest
      · exact more
      · exact lt_trans more (headBelow other inRest)

end Ferrite.Logical
