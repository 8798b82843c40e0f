import Mathlib.Order.Basic

/-!
# Readers

A reader takes a result from the front of its input, or fails. What it leaves is always
a later part of what it was given, so a reader carries that fact with it, and a loop
that takes something in every round needs at most as many rounds as the input is long.
-/

namespace Ferrite.Logical

/-- An input that is used up from the front: later parts are smaller. -/
class Input (σ : Type) extends Preorder σ where
  size : σ → Nat
  size_mono : ∀ {after before : σ}, after ≤ before → size after ≤ size before

/-- A fallible step over an input that never goes back. -/
structure Reader (σ : Type) [Input σ] (ε α : Type) where
  run : σ → Except ε (α × σ)
  le_of_run : ∀ {before after : σ} {result : α}, run before = .ok (result, after) → after ≤ before

namespace Reader

open Input

variable {σ ε α β γ : Type} [Input σ]

variable {first : Reader σ ε α} {next : α → Reader σ ε β} {before : σ}

@[ext] theorem ext {second : Reader σ ε α} (same : ∀ input, first.run input = second.run input) : first = second := by
  cases first
  cases second
  congr
  exact funext same

/-! ## Putting readers together -/

def done (result : α) : Reader σ ε α where
  run input := .ok (result, input)
  le_of_run ran := by
    cases ran
    exact le_refl _

def runThen (first : Reader σ ε α) (next : α → Reader σ ε β) (input : σ) : Except ε (β × σ) :=
  match first.run input with
  | .error error => .error error
  | .ok (result, rest) => (next result).run rest

private theorem runThen_eq_ok {after : σ} {result : β} : runThen first next before = .ok (result, after) ↔
      ∃ value middle, first.run before = .ok (value, middle) ∧ (next value).run middle = .ok (result, after) := by
  rw [runThen]
  split
  · rename_i error failed
    simp [failed]
  · rename_i value middle ran
    constructor
    · exact fun ranNext => ⟨value, middle, ran, ranNext⟩
    · rintro ⟨other, between, same, ranNext⟩
      cases ran.symm.trans same
      exact ranNext

def andThen (first : Reader σ ε α) (next : α → Reader σ ε β) : Reader σ ε β where
  run := runThen first next
  le_of_run ran := by
    obtain ⟨value, middle, ranFirst, ranNext⟩ := runThen_eq_ok.mp ran
    exact le_trans ((next value).le_of_run ranNext) (first.le_of_run ranFirst)

instance : Monad (Reader σ ε) where
  pure := done
  bind := andThen

/-- Fail, for a reason that depends on where. -/
def fail (error : σ → ε) : Reader σ ε α where
  run input := .error (error input)
  le_of_run ran := by cases ran

/-- Look at the input without taking anything. -/
def look (view : σ → α) : Reader σ ε α where
  run input := .ok (view input, input)
  le_of_run ran := by
    cases ran
    exact le_refl _

def move (step : σ → σ) (forward : ∀ input, step input ≤ input) : Reader σ ε Unit where
  run input := .ok ((), step input)
  le_of_run ran := by
    cases ran
    exact forward _

@[simp] theorem run_look (view : σ → α) (input : σ) :
    (look view : Reader σ ε α).run input = .ok (view input, input) := rfl

@[simp] theorem run_move (step : σ → σ) (forward : ∀ input, step input ≤ input) (input : σ) :
    (move step forward : Reader σ ε Unit).run input = .ok ((), step input) := rfl

theorem run_bind (first : Reader σ ε α) (next : α → Reader σ ε β) (input : σ) :
    (first >>= next).run input = runThen first next input := rfl

/-- The second reader goes on where the first stopped. -/
theorem run_bind_ok {middle : σ} {value : α} (ran : first.run before = .ok (value, middle)) :
    (first >>= next).run before = (next value).run middle := by
  rw [run_bind, runThen, ran]

/-- What a sequence of two readers reads. -/
theorem bind_run_eq_ok {after : σ} {result : β} : (first >>= next).run before = .ok (result, after) ↔
      ∃ value middle, first.run before = .ok (value, middle) ∧ (next value).run middle = .ok (result, after) :=
  runThen_eq_ok

/-! ## Loops -/

section

variable [Inhabited ε] (step : β → Reader σ ε (β ⊕ α))

/-- At most that many rounds of a loop. -/
def iterate : Nat → β → Reader σ ε α
  | 0, _ => fail fun _ => default
  | rounds + 1, state => step state >>= Sum.elim (iterate rounds) pure

/-- A loop: a step goes on with a new state, or ends with a result. -/
def loop (state : β) : Reader σ ε α where
  run input := (iterate step (size input + 1) state).run input
  le_of_run ran := (iterate step _ state).le_of_run ran

/-- A step that goes on has taken something. -/
def Advances : Prop :=
  ∀ ⦃state next before after⦄, (step state).run before = .ok (.inl next, after) → size after < size before

variable {step}

/-- Rounds beyond the size of the input are never reached. -/
theorem iterate_eq (advances : Advances step) {rounds others : Nat} {state : β} {input : σ}
    (enough : size input < rounds) (enoughOthers : size input < others) :
    (iterate step rounds state).run input = (iterate step others state).run input := by
  induction rounds generalizing others state input with
  | zero => exact absurd enough (Nat.not_lt_zero _)
  | succ rounds ih =>
    obtain _ | others := others
    · exact absurd enoughOthers (Nat.not_lt_zero _)
    · rw [iterate, iterate, run_bind, run_bind, runThen, runThen]
      cases ran : (step state).run input with
      | error error => rfl
      | ok answer =>
        obtain ⟨next | result, rest⟩ := answer
        · have taken := advances ran
          exact ih (by omega) (by omega)
        · rfl

theorem loop_eq (advances : Advances step) (state : β) :
    loop step state = step state >>= Sum.elim (loop step) pure := by
  ext input
  change (iterate step (size input + 1) state).run input = _
  rw [iterate, run_bind, run_bind, runThen, runThen]
  cases ran : (step state).run input with
  | error error => rfl
  | ok answer =>
    obtain ⟨next | result, rest⟩ := answer
    · change (iterate step (size input) next).run rest = (iterate step (size rest + 1) next).run rest
      exact iterate_eq advances (advances ran) (Nat.lt_succ_self _)
    · rfl

/-- What every step keeps holds of what a loop ends with. -/
theorem loop_induction {invariant : β → σ → Prop} {post : α → σ → Prop}
    (kept : ∀ ⦃state next before after⦄, invariant state before →
      (step state).run before = .ok (.inl next, after) → invariant next after)
    (ends : ∀ ⦃state result before after⦄, invariant state before →
      (step state).run before = .ok (.inr result, after) → post result after)
    {state : β} {before after : σ} {result : α} (initially : invariant state before)
    (ran : (loop step state).run before = .ok (result, after)) : post result after := by
  change (iterate step (size before + 1) state).run before = _ at ran
  generalize size before + 1 = rounds at ran
  induction rounds generalizing state before with
  | zero => cases ran
  | succ rounds ih =>
    obtain ⟨next | value, middle, stepped, ran⟩ := bind_run_eq_ok.mp ran
    · exact ih (kept initially stepped) ran
    · cases ran
      exact ends initially stepped

/-- Read another one and add it to the list, if there is more. -/
def pushWhile (more : Reader σ ε Bool) (item : Reader σ ε α) (list : List α) :
    Reader σ ε (List α ⊕ List α) := do
  if ← more then
    let next ← item
    pure (.inl (list ++ [next]))
  else pure (.inr list)

/-- As long as there is more, add another one to the list. -/
def manyWhile (more : Reader σ ε Bool) (item : Reader σ ε α) : List α → Reader σ ε (List α) :=
  loop (pushWhile more item)

end

end Reader
end Ferrite.Logical
