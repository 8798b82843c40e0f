import Mathlib.Data.List.Basic

/-!
# Runs of a deterministic machine

A machine answers each input with an output and a next state. `run` collects the
outputs of a whole input sequence; `Meets` says that every step of a run
satisfies a condition in the state before it. The two rules below reduce a
statement about all runs to one about a single step.
-/

namespace Ferrite.Logical.Machine

variable {σ τ ι κ ο : Type*}

/-- Feed a sequence of inputs, collecting the outputs and the last state. -/
def run (step : σ → ι → ο × σ) : σ → List ι → List ο × σ
  | state, [] => ([], state)
  | state, input :: rest =>
    let answer := step state input
    let later := run step answer.2 rest
    (answer.1 :: later.1, later.2)

/-- Every step of the run satisfies `condition` in the state before it. -/
def Meets (step : σ → ι → ο × σ) (condition : σ → ι → Prop) : σ → List ι → Prop
  | _, [] => True
  | state, input :: rest => condition state input ∧ Meets step condition (step state input).2 rest

instance decidableMeets (step : σ → ι → ο × σ) (condition : σ → ι → Prop)
    [∀ state input, Decidable (condition state input)] :
    (state : σ) → (inputs : List ι) → Decidable (Meets step condition state inputs)
  | _, [] => .isTrue trivial
  | state, input :: rest =>
    have := decidableMeets step condition (step state input).2 rest
    inferInstanceAs (Decidable (condition state input ∧ Meets step condition (step state input).2 rest))

variable {step : σ → ι → ο × σ} {condition : σ → ι → Prop} {state : σ} {Inv : σ → Prop} {inputs : List ι}

@[simp] theorem run_nil (step : σ → ι → ο × σ) (state : σ) : run step state [] = ([], state) := rfl

theorem run_cons (step : σ → ι → ο × σ) (state : σ) (input : ι) (rest : List ι) : run step state (input :: rest) =
      ((step state input).1 :: (run step (step state input).2 rest).1, (run step (step state input).2 rest).2) := rfl

/-- A run in two parts. -/
theorem run_append (step : σ → ι → ο × σ) (state : σ) (first second : List ι) : run step state (first ++ second) =
      ((run step state first).1 ++ (run step (run step state first).2 second).1,
        (run step (run step state first).2 second).2) := by
  induction first generalizing state with
  | nil => rfl
  | cons input rest ih => simp [run_cons, ih]

/-- Translating the inputs first is running the translated machine. -/
theorem run_map (step : σ → ι → ο × σ) (translate : κ → ι) (state : σ) (inputs : List κ) :
    run step state (inputs.map translate) = run (fun state input => step state (translate input)) state inputs := by
  induction inputs generalizing state with
  | nil => rfl
  | cons input rest ih => simp [run_cons, ih]

theorem meets_append {first second : List ι} : Meets step condition state (first ++ second) ↔
      Meets step condition state first ∧ Meets step condition (run step state first).2 second := by
  induction first generalizing state with
  | nil => simp [Meets]
  | cons input rest ih => simp [Meets, run_cons, ih, and_assoc]

/-- A step-preserved invariant holds at the end of every run that meets the
condition under which the step preserves it. -/
theorem run_invariant (preserved : ∀ state input, Inv state → condition state input → Inv (step state input).2)
    (initial : Inv state) (meets : Meets step condition state inputs) : Inv (run step state inputs).2 := by
  induction inputs generalizing state with
  | nil => exact initial
  | cons input rest ih => exact ih (preserved state input initial meets.1) meets.2

/-- What every step preserves holds at the end of every run. -/
theorem run_always (preserved : ∀ state input, Inv state → Inv (step state input).2) (initial : Inv state)
    (inputs : List ι) : Inv (run step state inputs).2 := by
  induction inputs generalizing state with
  | nil => exact initial
  | cons input rest ih => exact ih (preserved state input initial)

/-- Two machines whose related states answer related inputs alike, and step to
related states, answer whole runs alike. -/
theorem run_simulation {step' : τ → κ → ο × τ} {R : σ → τ → Prop} {translate : κ → ι} {condition : σ → κ → Prop}
    (simulates : ∀ state state' input, R state state' → condition state input →
      (step state (translate input)).1 = (step' state' input).1 ∧
        R (step state (translate input)).2 (step' state' input).2) {state' : τ} {inputs : List κ}
    (related : R state state')
    (meets : Meets (fun state input => step state (translate input)) condition state inputs) :
    (run step state (inputs.map translate)).1 = (run step' state' inputs).1 ∧
      R (run step state (inputs.map translate)).2 (run step' state' inputs).2 := by
  induction inputs generalizing state state' with
  | nil => exact ⟨rfl, related⟩
  | cons input rest ih =>
    obtain ⟨same, next⟩ := simulates state state' input related meets.1
    obtain ⟨restSame, restRelated⟩ := ih next meets.2
    exact ⟨by simp [run_cons, same, restSame], restRelated⟩

/-- A run meets a condition exactly when no prefix of it leaves `Good`, if a step from
a good state stays good exactly under the condition. -/
theorem meets_iff_forall_take {Good : σ → Prop} (preserved : ∀ state input, Inv state → Inv (step state input).2)
    (exact_ : ∀ state input, Inv state → Good state → (condition state input ↔ Good (step state input).2))
    (initial : Inv state) (good : Good state) :
    Meets step condition state inputs ↔ ∀ count, Good (run step state (inputs.take count)).2 := by
  induction inputs generalizing state with
  | nil => simp [Meets, good]
  | cons input rest ih =>
    constructor
    · rintro ⟨now, later⟩ count
      have next := (exact_ state input initial good).mp now
      cases count with
      | zero => exact good
      | succ count => exact (ih (preserved state input initial) next).mp later count
    · intro always
      have next : Good (step state input).2 := always 1
      refine ⟨(exact_ state input initial good).mpr next, (ih (preserved state input initial) next).mpr ?_⟩
      exact fun count => always (count + 1)

/-- A condition on inputs alone is met by every run over such inputs. -/
theorem meets_of_forall (holds : ∀ input ∈ inputs, ∀ state, condition state input) (state : σ) :
    Meets step condition state inputs := by
  induction inputs generalizing state with
  | nil => trivial
  | cons input rest ih =>
    exact ⟨holds input List.mem_cons_self state,
      ih (fun other member => holds other (List.mem_cons_of_mem _ member)) _⟩

end Ferrite.Logical.Machine
