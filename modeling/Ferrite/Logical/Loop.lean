import Mathlib.Data.Sum.Basic

/-!
# Loops that answer

A loop is a round that gives an answer or a next state. `EndsWithin` says that it answers
after at most some number of rounds. A measure that every round decreases gives the number,
an invariant gives what is known of the answer, and a map of states that commutes with the
round carries both from one loop to another.
-/

namespace Ferrite.Logical.Loop

variable {σ τ β : Type*}

/-- The loop gives the answer within a number of rounds. -/
inductive EndsWithin (round : σ → β ⊕ σ) : Nat → σ → β → Prop where
  | answers {count : Nat} {state : σ} {answer : β} (now : round state = .inl answer) :
      EndsWithin round (count + 1) state answer
  | goesOn {count : Nat} {state next : σ} {answer : β} (now : round state = .inr next)
      (later : EndsWithin round count next answer) : EndsWithin round (count + 1) state answer

variable {round : σ → β ⊕ σ}

/-- Rounds that keep an invariant and decrease a measure come to an end, with an answer
that the invariant vouches for. -/
theorem endsWithin_of_measure {Inv : σ → Prop} {Post : β → Prop} (measure : σ → Nat)
    (goesOn : ∀ state next, Inv state → round state = .inr next → Inv next ∧ measure next < measure state)
    (answers : ∀ state answer, Inv state → round state = .inl answer → Post answer) {count : Nat} {state : σ}
    (initial : Inv state) (enough : measure state < count) :
    ∃ answer, EndsWithin round count state answer ∧ Post answer := by
  induction count generalizing state with
  | zero => exact absurd enough (Nat.not_lt_zero _)
  | succ count ih =>
    cases now : round state with
    | inl answer => exact ⟨answer, .answers now, answers state answer initial now⟩
    | inr next =>
      obtain ⟨still, smaller⟩ := goesOn state next initial now
      obtain ⟨answer, later, post⟩ := ih still (Nat.lt_of_lt_of_le smaller (Nat.le_of_lt_succ enough))
      exact ⟨answer, .goesOn now later, post⟩

/-- A loop whose states map to those of another ends as that one does. -/
theorem EndsWithin.of_map {round' : τ → β ⊕ τ} {image : σ → τ}
    (commutes : ∀ state, round' (image state) = (round state).map id image) {count : Nat} {state : σ} {answer : β}
    (ends : EndsWithin round' count (image state) answer) : EndsWithin round count state answer := by
  induction count generalizing state with
  | zero => cases ends
  | succ count ih =>
    have same := commutes state
    cases now : round state with
    | inl found =>
      rw [now] at same
      cases ends with
      | answers here => exact Sum.inl.inj (same.symm.trans here) ▸ .answers now
      | goesOn here _ => cases same.symm.trans here
    | inr next =>
      rw [now] at same
      cases ends with
      | answers here => cases same.symm.trans here
      | goesOn here later =>
        obtain rfl := Sum.inr.inj (same.symm.trans here)
        exact .goesOn now (ih later)

end Ferrite.Logical.Loop
