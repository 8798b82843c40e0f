import Mathlib.Data.List.Basic

/-!
# Streams of frames

A stream that is read one frame at a time, and what is left of it when it is cut. If a
frame is recognised whatever follows it, and a part of a frame is taken for the end, then
reading a cut stream gives the items whose frames are whole, and nothing else.
-/

namespace Ferrite.Logical

/-- What one look at a stream finds: its end, which may be a torn frame, or an item and
what comes after it. -/
inductive Found (τ α : Type) where
  | stop (torn : Bool)
  | item (value : α) (rest : List τ)

namespace Frames

variable {τ ε α β : Type}

/-- Visit the items of a stream in order, at most that many. -/
def drain (next : List τ → Except ε (Found τ α)) (visit : β → α → Except ε β) : Nat → β → List τ → Except ε (β × Bool)
  | 0, state, _ => .ok (state, false)
  | rounds + 1, state, stream =>
    match next stream with
    | .error error => .error error
    | .ok (.stop torn) => .ok (state, torn)
    | .ok (.item value rest) =>
      match visit state value with
      | .error error => .error error
      | .ok state => drain next visit rounds state rest

/-- Keep the items visited. -/
def collect (seen : List α) (value : α) : Except ε (List α) := .ok (seen ++ [value])

/-- A visitor that never fails works through the items a collector keeps. -/
theorem drain_pure (next : List τ → Except ε (Found τ α)) (step : β → α → β) (rounds : Nat) (seen : List α)
    (state : β) (stream : List τ) :
    drain next (fun state value => .ok (step state value)) rounds (seen.foldl step state) stream =
      (fun ended => (ended.1.foldl step state, ended.2)) <$> drain next collect rounds seen stream := by
  induction rounds generalizing seen stream with
  | zero => rfl
  | succ rounds ih =>
    rw [drain, drain]
    cases next stream with
    | error error => rfl
    | ok found =>
      cases found with
      | stop torn => rfl
      | item value rest =>
        have later := ih (seen ++ [value]) rest
        rw [List.foldl_append] at later
        exact later

/-- One look recognises a frame from the front, and takes less than a frame for the end. -/
structure Recognises (next : List τ → Except ε (Found τ α)) (frame : α → List τ) : Prop where
  nonempty : ∀ value, frame value ≠ []
  whole : ∀ value more, next (frame value ++ more) = .ok (.item value more)
  empty : ∃ torn, next [] = .ok (.stop torn)
  cut : ∀ value part, part <+: frame value → part ≠ frame value → ∃ torn, next part = .ok (.stop torn)

/-- The first items, as long as their frames lie within a length. -/
def within (frame : α → List τ) : Nat → List α → List α
  | _, [] => []
  | length, value :: values =>
    if (frame value).length ≤ length then value :: within frame (length - (frame value).length) values else []

section

variable {next : List τ → Except ε (Found τ α)} {frame : α → List τ} {visit : β → α → Except ε β}

/-- What is visited in a cut stream, and that nothing but the visitor can fail. -/
theorem drain_take (recognises : Recognises next frame) {rounds length : Nat} {values : List α} (state : β)
    (enough : ((values.flatMap frame).take length).length < rounds) :
    ∃ torn, drain next visit rounds state ((values.flatMap frame).take length) =
      (fun state => (state, torn)) <$> (within frame length values).foldlM visit state := by
  induction rounds generalizing length values state with
  | zero => exact absurd enough (Nat.not_lt_zero _)
  | succ rounds ih =>
    cases values with
    | nil =>
      obtain ⟨torn, ended⟩ := recognises.empty
      refine ⟨torn, ?_⟩
      rw [List.flatMap_nil, List.take_nil, drain, ended]
      rfl
    | cons value values =>
      rw [List.flatMap_cons] at enough ⊢
      by_cases fits : (frame value).length ≤ length
      · have kept : (frame value ++ values.flatMap frame).take length =
            frame value ++ (values.flatMap frame).take (length - (frame value).length) := by
          rw [List.take_append, List.take_of_length_le fits]
        have some := List.length_pos_iff.mpr (recognises.nonempty value)
        rw [kept, List.length_append] at enough
        rw [kept, drain, recognises.whole, within, if_pos fits, List.foldlM_cons]
        dsimp only
        cases visit state value with
        | error error => exact ⟨false, rfl⟩
        | ok after =>
          have rest : ((values.flatMap frame).take (length - (frame value).length)).length < rounds := by omega
          exact ih after rest
      · have shorter := Nat.lt_of_not_le fits
        have kept : (frame value ++ values.flatMap frame).take length = (frame value).take length := by
          rw [List.take_append_of_le_length (Nat.le_of_lt shorter)]
        have proper : (frame value).take length ≠ frame value := fun same => by
          have lengths := congrArg List.length same
          rw [List.length_take] at lengths
          omega
        obtain ⟨torn, ended⟩ := recognises.cut value _ (List.take_prefix _ _) proper
        refine ⟨torn, ?_⟩
        rw [kept, drain, ended, within, if_neg fits]
        rfl

/-- Whole frames are visited up to where a look stops. -/
theorem drain_until_stop (recognises : Recognises next frame) {rest : List τ} {torn : Bool}
    (stops : next rest = .ok (.stop torn)) {rounds : Nat} {values : List α} (state : β)
    (enough : (values.flatMap frame ++ rest).length < rounds) :
    drain next visit rounds state (values.flatMap frame ++ rest) =
      (fun state => (state, torn)) <$> values.foldlM visit state := by
  induction values generalizing rounds state with
  | nil =>
    obtain ⟨rounds, rfl⟩ := Nat.exists_eq_succ_of_ne_zero (Nat.ne_zero_of_lt enough)
    rw [List.flatMap_nil, List.nil_append, drain, stops]
    rfl
  | cons value values ih =>
    obtain ⟨rounds, rfl⟩ := Nat.exists_eq_succ_of_ne_zero (Nat.ne_zero_of_lt enough)
    have some := List.length_pos_iff.mpr (recognises.nonempty value)
    rw [List.flatMap_cons, List.append_assoc] at enough ⊢
    rw [List.length_append] at enough
    rw [drain, recognises.whole, List.foldlM_cons]
    dsimp only
    cases visit state value with
    | error error => rfl
    | ok after => exact ih after (by omega)

/-- The items within a length are the first ones, up to the last whose frame ends there. -/
theorem within_eq_take (frame : α → List τ) (length : Nat) (values : List α) :
    ∃ count, within frame length values = values.take count ∧ ∀ index, index < values.length →
        (index < count ↔ ((values.take (index + 1)).flatMap frame).length ≤ length) := by
  induction values generalizing length with
  | nil => exact ⟨0, rfl, fun index bound => absurd bound (Nat.not_lt_zero _)⟩
  | cons value values ih =>
    by_cases fits : (frame value).length ≤ length
    · obtain ⟨count, taken, exact⟩ := ih (length - (frame value).length)
      refine ⟨count + 1, by rw [within, if_pos fits, taken, List.take_succ_cons], ?_⟩
      intro index bound
      cases index with
      | zero => simpa using fits
      | succ index =>
        have later := exact index (Nat.lt_of_succ_lt_succ bound)
        rw [List.take_succ_cons, List.flatMap_cons, List.length_append]
        omega
    · refine ⟨0, by rw [within, if_neg fits, List.take_zero], ?_⟩
      intro index bound
      rw [List.take_succ_cons, List.flatMap_cons, List.length_append]
      omega

end
end Frames
end Ferrite.Logical
