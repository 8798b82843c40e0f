import Mathlib.Data.List.Basic

/-!
# Relational joins

The five joins of relational algebra over lists, in the order a nested loop produces
them: for each left row its matches in order, or one padded row if it has none and
the left side is preserved; then, if the right side is preserved, the right rows
without a match.
-/

namespace Ferrite.Logical

variable {α β γ : Type}

/-- What a join does with a pair, and with a row that found no partner. -/
structure Pairing (α β γ : Type) where
  both : α → β → γ
  leftOnly : α → γ
  rightOnly : β → γ

variable (pairing : Pairing α β γ) (preservesLeft preservesRight : Bool)

def leftRows (matched : α → β → Bool) (right : List β) (row : α) : List γ :=
  if preservesLeft && (right.filter (matched row)).isEmpty then [pairing.leftOnly row]
  else (right.filter (matched row)).map (pairing.both row)

/-- The right rows no left row matches. -/
def unmatchedRight (matched : α → β → Bool) (left : List α) (right : List β) : List β :=
  right.filter fun row => !left.any fun other => matched other row

def joinRows (matched : α → β → Bool) (left : List α) (right : List β) : List γ :=
  left.flatMap (leftRows pairing preservesLeft matched right) ++
    if preservesRight then (unmatchedRight matched left right).map pairing.rightOnly else []

variable {pairing preservesLeft preservesRight}

/-- A join of mapped rows is the join of the rows, mapped while pairing. -/
theorem joinRows_map {α' β' : Type} (first : α' → α) (second : β' → β) (matched : α → β → Bool)
    (left : List α') (right : List β') :
    joinRows pairing preservesLeft preservesRight matched (left.map first) (right.map second) =
      joinRows ⟨fun l r => pairing.both (first l) (second r), fun l => pairing.leftOnly (first l),
          fun r => pairing.rightOnly (second r)⟩ preservesLeft preservesRight
        (fun l r => matched (first l) (second r)) left right := by
  have contribution : ∀ row, leftRows pairing preservesLeft matched (right.map second) (first row) =
      leftRows ⟨fun l r => pairing.both (first l) (second r), fun l => pairing.leftOnly (first l),
        fun r => pairing.rightOnly (second r)⟩ preservesLeft (fun l r => matched (first l) (second r)) right row := by
    intro row
    simp [leftRows, List.filter_map, Function.comp_def]
  have alone : unmatchedRight matched (left.map first) (right.map second) =
      (unmatchedRight (fun l r => matched (first l) (second r)) left right).map second := by
    simp [unmatchedRight, List.filter_map, Function.comp_def]
  rw [joinRows, joinRows, List.flatMap_map, List.flatMap_congr fun row _ => contribution row, alone, List.map_map]
  rfl

/-- Mapping the output of a join is pairing differently. -/
theorem map_joinRows {δ : Type} (map : γ → δ) (matched : α → β → Bool) (left : List α) (right : List β) :
    (joinRows pairing preservesLeft preservesRight matched left right).map map =
      joinRows ⟨fun l r => map (pairing.both l r), fun l => map (pairing.leftOnly l),
        fun r => map (pairing.rightOnly r)⟩ preservesLeft preservesRight matched left right := by
  have contribution : ∀ row, (leftRows pairing preservesLeft matched right row).map map =
      leftRows ⟨fun l r => map (pairing.both l r), fun l => map (pairing.leftOnly l),
        fun r => map (pairing.rightOnly r)⟩ preservesLeft matched right row := by
    intro row
    rw [leftRows, leftRows]
    split <;> simp
  rw [joinRows, joinRows, List.map_append, List.map_flatMap, List.flatMap_congr fun row _ => contribution row]
  cases preservesRight <;> simp

/-- How rows are put together does not change how many there are. -/
theorem length_joinRows (other : Pairing α β γ) (matched : α → β → Bool) (left : List α) (right : List β) :
    (joinRows pairing preservesLeft preservesRight matched left right).length =
      (joinRows other preservesLeft preservesRight matched left right).length := by
  have same : (joinRows pairing preservesLeft preservesRight matched left right).map (fun _ => ()) =
      (joinRows other preservesLeft preservesRight matched left right).map fun _ => () := by
    rw [map_joinRows, map_joinRows]
  simpa using congrArg List.length same

end Ferrite.Logical
