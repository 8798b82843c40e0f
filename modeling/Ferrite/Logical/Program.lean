import Mathlib.Data.Multiset.Basic

/-!
# Programs over a store

A program makes calls to a store, reads and writes a state of its own, and ends with a
result or an error; a loop that may not end is cut off by `hang`. A store answers calls,
or refuses them for a reason of its own, which stops the program. Running a program is
compositional, and a relation between two stores that every call respects is respected
by every program.
-/

namespace Ferrite.Logical

/-- A program with calls `Call`, a state `σ`, errors `ε` and a result `α`. -/
inductive Prog (Call : Type → Type) (σ ε α : Type) : Type 1 where
  | done (result : α)
  | fail (error : ε)
  | hang
  | call {β : Type} (op : Call β) (next : β → Prog Call σ ε α)
  | read (next : σ → Prog Call σ ε α)
  | write (state : σ) (next : Prog Call σ ε α)

/-- Why a program stopped without a result. -/
inductive Stop (ρ : Type) where
  | hang
  | refused (reason : ρ)
deriving DecidableEq

namespace Prog

variable {Call : Type → Type} {σ ε ρ α β : Type}

/-- Go on with the result of a program. -/
def bind (prog : Prog Call σ ε α) (next : α → Prog Call σ ε β) : Prog Call σ ε β :=
  match prog with
  | .done result => next result
  | .fail error => .fail error
  | .hang => .hang
  | .call op rest => .call op fun answer => (rest answer).bind next
  | .read rest => .read fun state => (rest state).bind next
  | .write state rest => .write state (rest.bind next)

instance : Monad (Prog Call σ ε) where
  pure := .done
  bind := .bind

/-- A program of one call. -/
def ask (op : Call α) : Prog Call σ ε α := .call op .done

def getState : Prog Call σ ε σ := .read .done

def setState (state : σ) : Prog Call σ ε Unit := .write state (.done ())

/-- Fail, or go on with the value. -/
def ofExcept : Except ε α → Prog Call σ ε α
  | .ok result => .done result
  | .error error => .fail error

/-- The program never makes a call of the given kind. -/
def Avoids (kind : {β : Type} → Call β → Bool) : Prog Call σ ε α → Prop
  | .done _ => True
  | .fail _ => True
  | .hang => True
  | .call op next => kind op = false ∧ ∀ answer, Avoids kind (next answer)
  | .read next => ∀ state, Avoids kind (next state)
  | .write _ next => Avoids kind next

section

variable {kind : {β : Type} → Call β → Bool}

theorem avoids_ask {op : Call α} (other : kind op = false) :
    Avoids kind (ask op : Prog Call σ ε α) := ⟨other, fun _ => trivial⟩

theorem Avoids.bind {prog : Prog Call σ ε α} {next : α → Prog Call σ ε β} (first : Avoids kind prog)
    (rest : ∀ result, Avoids kind (next result)) : Avoids kind (prog >>= next) := by
  change Avoids kind (prog.bind next)
  induction prog with
  | done result => exact rest result
  | fail error => trivial
  | hang => trivial
  | call op others ih => exact ⟨first.1, fun answer => ih answer (first.2 answer)⟩
  | read others ih => exact fun state => ih state (first state)
  | write state others ih => exact ih first

end

section

variable {S : Type} (answer : {β : Type} → Call β → S → Except (Stop ρ) (Except ε β × S))

/-- Run a program on a store. An error of a call ends the program with that error. -/
def run : Prog Call σ ε α → σ → S → Except (Stop ρ) (Except ε α × σ × S)
  | .done result, state, store => .ok (.ok result, state, store)
  | .fail error, state, store => .ok (.error error, state, store)
  | .hang, _, _ => .error .hang
  | .call op next, state, store =>
    match answer op store with
    | .error stop => .error stop
    | .ok (.error error, store) => .ok (.error error, state, store)
    | .ok (.ok result, store) => (next result).run state store
  | .read next, state, store => (next state).run state store
  | .write state next, _, store => next.run state store

variable {answer}

variable {prog : Prog Call σ ε α} {state : σ} {store store' : S}

@[simp] theorem run_pure (result : α) (state : σ) (store : S) :
    run answer (pure result : Prog Call σ ε α) state store = .ok (.ok result, state, store) := rfl

@[simp] theorem run_done (result : α) (state : σ) (store : S) :
    run answer (.done result : Prog Call σ ε α) state store = .ok (.ok result, state, store) := rfl

@[simp] theorem run_fail (error : ε) (state : σ) (store : S) :
    run answer (.fail error : Prog Call σ ε α) state store = .ok (.error error, state, store) := rfl

/-- Running a sequence is running its first part and then, on success, the rest. -/
theorem run_bind (prog : Prog Call σ ε α) (next : α → Prog Call σ ε β) (state : σ) (store : S) :
    run answer (prog >>= next) state store =
      match run answer prog state store with
      | .error stop => .error stop
      | .ok (.error error, state, store) => .ok (.error error, state, store)
      | .ok (.ok result, state, store) => run answer (next result) state store := by
  change run answer (prog.bind next) state store = _
  induction prog generalizing state store with
  | done result => rfl
  | fail error => rfl
  | hang => rfl
  | call op rest ih =>
    simp only [bind, run]
    cases asked : answer op store with
    | error stop => rfl
    | ok pair =>
      obtain ⟨result, after⟩ := pair
      cases result with
      | error error => rfl
      | ok result => exact ih result state after
  | read rest ih => exact ih state state store
  | write other rest ih => exact ih other store

/-- A program goes on from where its first part ended. -/
theorem run_bind_ok (next : α → Prog Call σ ε β) {state' : σ} {result : α}
    (first : run answer prog state store = .ok (.ok result, state', store')) :
    run answer (prog >>= next) state store = run answer (next result) state' store' := by
  rw [run_bind, first]

theorem run_bind_error {next : α → Prog Call σ ε β} {state' : σ} {error : ε}
    (first : run answer prog state store = .ok (.error error, state', store')) :
    run answer (prog >>= next) state store = .ok (.error error, state', store') := by
  rw [run_bind, first]

/-- A program stops where its first part does. -/
theorem run_bind_stop {next : α → Prog Call σ ε β} {stop : Stop ρ} (first : run answer prog state store = .error stop) :
    run answer (prog >>= next) state store = .error stop := by
  rw [run_bind, first]

theorem run_ask {op : Call α} {result : α} (answered : answer op store = .ok (.ok result, store')) :
    run answer (ask op : Prog Call σ ε α) state store = .ok (.ok result, state, store') := by
  rw [ask, run, answered]
  rfl

/-- A program is only stopped for a reason some call of its gives. -/
theorem run_ne_of_avoids {kind : {β : Type} → Call β → Bool} {reason : ρ} (avoids : Avoids kind prog)
    (answers : ∀ {β : Type} (op : Call β) (store : S), kind op = false →
      answer op store ≠ .error (.refused reason)) (state : σ) (store : S) :
    run answer prog state store ≠ .error (.refused reason) := by
  induction prog generalizing state store with
  | done result => simp [run]
  | fail error => simp [run]
  | hang => simp [run]
  | call op next ih =>
    rw [run]
    have own := answers op store avoids.1
    cases asked : answer op store with
    | error stop =>
      rw [asked] at own
      simpa using own
    | ok pair =>
      obtain ⟨result, after⟩ := pair
      cases result with
      | error error => simp
      | ok result => exact ih result (avoids.2 result) state after
  | read next ih => exact ih state (avoids state) state store
  | write other next ih => exact ih avoids other store

end

section

variable {S T : Type} {ρ' : Type}
  {answer : {β : Type} → Call β → S → Except (Stop ρ) (Except ε β × S)}
  {answer' : {β : Type} → Call β → T → Except (Stop ρ') (Except ε β × T)}

/-- What every call respects, every program respects. -/
theorem run_simulates (related : S → T → Prop)
    (step : ∀ {β : Type} (op : Call β) (store : S) (other : T) (result : Except ε β) (store' : S),
      related store other → answer op store = .ok (result, store') →
        ∃ other', answer' op other = .ok (result, other') ∧ related store' other')
    (prog : Prog Call σ ε α) {state state' : σ} {store store' : S} {other : T} {result : Except ε α}
    (holds : related store other) (ran : run answer prog state store = .ok (result, state', store')) :
    ∃ other', run answer' prog state other = .ok (result, state', other') ∧ related store' other' := by
  induction prog generalizing state store other with
  | done value =>
    obtain ⟨rfl, rfl, rfl⟩ := by simpa [run] using ran
    exact ⟨other, rfl, holds⟩
  | fail error =>
    obtain ⟨rfl, rfl, rfl⟩ := by simpa [run] using ran
    exact ⟨other, rfl, holds⟩
  | hang => simp [run] at ran
  | call op rest ih =>
    simp only [run] at ran ⊢
    cases asked : answer op store with
    | error stop => simp [asked] at ran
    | ok pair =>
      obtain ⟨value, after⟩ := pair
      obtain ⟨otherAfter, asked', holdsAfter⟩ := step op store other value after holds asked
      rw [asked] at ran
      rw [asked']
      cases value with
      | error error =>
        obtain ⟨rfl, rfl, rfl⟩ := by simpa using ran
        exact ⟨otherAfter, rfl, holdsAfter⟩
      | ok value => exact ih value holdsAfter ran
  | read rest ih => exact ih state holds ran
  | write next rest ih => exact ih holds ran

end

end Prog
end Ferrite.Logical
