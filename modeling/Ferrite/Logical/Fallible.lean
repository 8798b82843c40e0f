import Mathlib.Data.List.Forall2

/-!
# Fallible computations

A sequence of fallible computations succeeds when each part does.
-/

namespace Ferrite.Logical

variable {ε α β : Type}

/-- A sequence succeeds when both parts do. -/
theorem bind_eq_ok {first : Except ε α} {next : α → Except ε β} {result : β} :
    (first >>= next) = .ok result ↔ ∃ value, first = .ok value ∧ next value = .ok result := by
  cases first with
  | error e => simp [bind, Except.bind]
  | ok value => simp [bind, Except.bind]

theorem ok_bind (value : α) (next : α → Except ε β) : ((.ok value : Except ε α) >>= next) = next value := rfl

/-- A mapped computation succeeds when the computation does. -/
theorem map_eq_ok {map : α → β} {first : Except ε α} {result : β} :
    map <$> first = .ok result ↔ ∃ value, first = .ok value ∧ map value = result := by
  cases first with
  | error e => simp [Functor.map, Except.map]
  | ok value => simp [Functor.map, Except.map]

/-- Running a computation over a list succeeds when it does on every element. -/
theorem mapM_eq_ok {run : α → Except ε β} {list : List α} {results : List β} :
    list.mapM run = .ok results ↔ List.Forall₂ (fun element result => run element = .ok result) list results := by
  induction list generalizing results with
  | nil =>
    rw [List.mapM_nil, List.forall₂_nil_left_iff]
    exact ⟨fun same => (Except.ok.inj same).symm, fun same => congrArg Except.ok same.symm⟩
  | cons element rest ih =>
    simp only [List.mapM_cons, bind_eq_ok, ih, List.forall₂_cons_left_iff]
    constructor
    · rintro ⟨result, first, others, later, same⟩
      cases same
      exact ⟨result, others, first, later, rfl⟩
    · rintro ⟨result, others, first, later, same⟩
      exact ⟨result, first, others, later, congrArg Except.ok same.symm⟩

end Ferrite.Logical
