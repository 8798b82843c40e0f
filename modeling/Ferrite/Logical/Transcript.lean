import Mathlib.Data.List.Basic

/-!
# Processes that are watched

A process moves a state, does things that others can see, and ends with a result or an
error; what it did before an error stays done. A conduct says which moves are fine and
what may be done from where. Conducts compose: a process made of parts that keep to a
conduct keeps to it.
-/

namespace Ferrite.Logical

/-- What a process did, how it ended, and the state it leaves. -/
structure Transcript (σ ω ε α : Type) where
  events : List ω
  result : Except ε α
  state : σ

def Process (σ ω ε α : Type) := σ → Transcript σ ω ε α

namespace Process

variable {σ ω ε α β : Type}

def done (value : α) : Process σ ω ε α := fun state => ⟨[], .ok value, state⟩

def fail (error : ε) : Process σ ω ε α := fun state => ⟨[], .error error, state⟩

/-- Go on with what a process ended with. -/
def proceed (next : α → Process σ ω ε β) (first : Transcript σ ω ε α) : Transcript σ ω ε β :=
  match first.result with
  | .error error => ⟨first.events, .error error, first.state⟩
  | .ok value =>
    let second := next value first.state
    ⟨first.events ++ second.events, second.result, second.state⟩

instance : Monad (Process σ ω ε) where
  pure := done
  bind first next := fun state => proceed next (first state)

/-- A failure as an ordinary result. -/
def attempt (process : Process σ ω ε α) : Process σ ω ε (Except ε α) := fun state =>
  ⟨(process state).events, .ok (process state).result, (process state).state⟩

theorem bind_of_ok {first : Process σ ω ε α} {next : α → Process σ ω ε β} {state : σ} {value : α}
    (ended : (first state).result = .ok value) :
    (first >>= next) state = ⟨(first state).events ++ (next value (first state).state).events,
      (next value (first state).state).result, (next value (first state).state).state⟩ := by
  change proceed next (first state) = _
  rw [proceed, ended]

theorem bind_of_error {first : Process σ ω ε α} {next : α → Process σ ω ε β} {state : σ} {error : ε}
    (ended : (first state).result = .error error) :
    (first >>= next) state = ⟨(first state).events, .error error, (first state).state⟩ := by
  change proceed next (first state) = _
  rw [proceed, ended]

end Process

/-! ## Conducts -/

/-- How a process may move its state, and what it may do from a state on. -/
structure Conduct (σ ω : Type) where
  moves : σ → σ → Prop
  does : σ → ω → Prop
  moves_refl : ∀ state, moves state state
  moves_trans : ∀ {first second third}, moves first second → moves second third → moves first third
  does_of_moves : ∀ {before after event}, moves before after → does after event → does before event

namespace Process

variable {σ ω ε α β : Type} {conduct : Conduct σ ω}

/-- The process keeps to the conduct, wherever it starts. -/
def KeepsTo (conduct : Conduct σ ω) (process : Process σ ω ε α) : Prop :=
  ∀ state, (∀ event ∈ (process state).events, conduct.does state event) ∧ conduct.moves state (process state).state

theorem keepsTo_pure (value : α) : KeepsTo conduct (pure value : Process σ ω ε α) :=
  fun state => ⟨nofun, conduct.moves_refl state⟩

theorem keepsTo_fail (error : ε) : KeepsTo conduct (fail error : Process σ ω ε α) :=
  fun state => ⟨nofun, conduct.moves_refl state⟩

theorem KeepsTo.attempt {process : Process σ ω ε α} (keeps : KeepsTo conduct process) :
    KeepsTo conduct process.attempt := keeps

theorem KeepsTo.bind {first : Process σ ω ε α} {next : α → Process σ ω ε β} (keeps : KeepsTo conduct first)
    (keepsNext : ∀ value, KeepsTo conduct (next value)) : KeepsTo conduct (first >>= next) := by
  intro state
  obtain ⟨doesFirst, movesFirst⟩ := keeps state
  cases ended : (first state).result with
  | error error =>
    rw [bind_of_error ended]
    exact ⟨doesFirst, movesFirst⟩
  | ok value =>
    obtain ⟨doesNext, movesNext⟩ := keepsNext value (first state).state
    rw [bind_of_ok ended]
    refine ⟨fun event done => ?_, conduct.moves_trans movesFirst movesNext⟩
    obtain early | late := List.mem_append.mp done
    · exact doesFirst event early
    · exact conduct.does_of_moves movesFirst (doesNext event late)

/-! ## Results -/

/-- Whatever the process ends with is of the given sort. -/
def Yields (sort : α → Prop) (process : Process σ ω ε α) : Prop :=
  ∀ state value, (process state).result = .ok value → sort value

theorem yields_pure {sort : α → Prop} {value : α} (holds : sort value) :
    Yields sort (pure value : Process σ ω ε α) := by
  intro state result ended
  cases ended
  exact holds

theorem yields_fail {sort : α → Prop} (error : ε) : Yields sort (fail error : Process σ ω ε α) := nofun

theorem yields_bind {sort : β → Prop} {first : Process σ ω ε α} {next : α → Process σ ω ε β}
    (yields : ∀ value, Yields sort (next value)) : Yields sort (first >>= next) := by
  intro state result ended
  cases endedFirst : (first state).result with
  | error error =>
    rw [bind_of_error endedFirst] at ended
    cases ended
  | ok value =>
    rw [bind_of_ok endedFirst] at ended
    exact yields value _ result ended

end Process
end Ferrite.Logical
