import Ferrite.Logical.Program

/-!
# Contracts of programs that run beside others

A program that shares its store cannot say what the store is between two of its
calls; it can say which calls it makes and what it concludes from their answers.
A contract fixes both, over whatever is known of the world: `allows` are the
calls a program may make, `moves` what an answer can be and what is known after
it, and `admits` the states a program may leave itself in. `Keeps` is the weakest precondition of a program under a contract. A program
that only makes calls of one kind and leaves its own state alone keeps every
contract that allows that kind.
-/

namespace Ferrite.Logical

universe u

/-- The calls a program may make, what it may be told, and what it may make of its state. -/
structure Contract (Call : Type → Type) (σ : Type) (γ : Type u) where
  allows : {β : Type} → γ → σ → Call β → Prop
  moves : {β : Type} → γ → σ → Call β → β → γ → Prop
  admits : γ → σ → Prop

namespace Prog

variable {Call : Type → Type} {σ ε α β : Type} {γ : Type u}

/-- Catch the error a program fails with. -/
def attempt : Prog Call σ ε α → Prog Call σ ε (Except ε α)
  | .done result => .done (.ok result)
  | .fail error => .done (.error error)
  | .hang => .hang
  | .call op next => .call op fun answer => (next answer).attempt
  | .read next => .read fun state => (next state).attempt
  | .write state next => .write state next.attempt

/-- The program keeps the contract from here on, and ends in `post`. -/
def Keeps (contract : Contract Call σ γ) (post : γ → σ → Except ε α → Prop) : Prog Call σ ε α → γ → σ → Prop
  | .done result, known, state => post known state (.ok result)
  | .fail error, known, state => post known state (.error error)
  | .hang, _, _ => True
  | .call op next, known, state =>
    contract.allows known state op ∧ ∀ answer known', contract.moves known state op answer known' →
      (next answer).Keeps contract post known' state
  | .read next, known, state => (next state).Keeps contract post known state
  | .write state next, known, _ => contract.admits known state ∧ next.Keeps contract post known state

section

variable {contract : Contract Call σ γ} {post : γ → σ → Except ε α → Prop}

variable {known : γ} {state : σ} {prog : Prog Call σ ε α}

/-- The return rule. -/
theorem keeps_pure {result : α} (holds : post known state (.ok result)) :
    Keeps contract post (pure result : Prog Call σ ε α) known state := holds

theorem keeps_ofExcept {value : Except ε α} (holds : post known state value) :
    Keeps contract post (ofExcept value : Prog Call σ ε α) known state := by
  cases value <;> exact holds

/-- The call rule: it is allowed, and the rest holds after every answer. -/
theorem keeps_ask_bind {op : Call β} {next : β → Prog Call σ ε α} (allowed : contract.allows known state op)
    (rest : ∀ answer known', contract.moves known state op answer known' →
      (next answer).Keeps contract post known' state) :
    (ask op >>= next).Keeps contract post known state := ⟨allowed, rest⟩

theorem keeps_getState {next : σ → Prog Call σ ε α} (rest : (next state).Keeps contract post known state) :
    (getState >>= next).Keeps contract post known state := rest

/-- The assignment rule. -/
theorem keeps_setState {next : Unit → Prog Call σ ε α} {other : σ} (admitted : contract.admits known other)
    (rest : (next ()).Keeps contract post known other) :
    (setState other >>= next).Keeps contract post known state := ⟨admitted, rest⟩

/-- The rule of consequence. -/
theorem Keeps.mono {post' : γ → σ → Except ε α → Prop} (keeps : prog.Keeps contract post known state)
    (weaker : ∀ known state result, post known state result → post' known state result) :
    prog.Keeps contract post' known state := by
  induction prog generalizing known state with
  | done result => exact weaker _ _ _ keeps
  | fail error => exact weaker _ _ _ keeps
  | hang => trivial
  | call op next ih => exact ⟨keeps.1, fun answer known' moved => ih answer (keeps.2 answer known' moved)⟩
  | read next ih => exact ih state keeps
  | write other next ih => exact ⟨keeps.1, ih keeps.2⟩

/-- Sequencing: an error of the first part is an error of the whole. -/
theorem Keeps.bind {next : α → Prog Call σ ε β} {post' : γ → σ → Except ε β → Prop}
    (first : prog.Keeps contract post known state)
    (failed : ∀ known state error, post known state (.error error) → post' known state (.error error))
    (rest : ∀ known state result, post known state (.ok result) →
      (next result).Keeps contract post' known state) : (prog >>= next).Keeps contract post' known state := by
  change (prog.bind next).Keeps contract post' known state
  induction prog generalizing known state with
  | done result => exact rest _ _ _ first
  | fail error => exact failed _ _ _ first
  | hang => trivial
  | call op others ih => exact ⟨first.1, fun answer known' moved => ih answer (first.2 answer known' moved)⟩
  | read others ih => exact ih state first
  | write other others ih => exact ⟨first.1, ih first.2⟩

/-- A caught error is an ordinary result. -/
theorem Keeps.attempt_bind {next : Except ε α → Prog Call σ ε β} {post' : γ → σ → Except ε β → Prop}
    (first : prog.Keeps contract post known state) (rest : ∀ known state result, post known state result →
      (next result).Keeps contract post' known state) : (prog.attempt >>= next).Keeps contract post' known state := by
  change (prog.attempt.bind next).Keeps contract post' known state
  induction prog generalizing known state with
  | done result => exact rest _ _ _ first
  | fail error => exact rest _ _ _ first
  | hang => trivial
  | call op others ih => exact ⟨first.1, fun answer known' moved => ih answer (first.2 answer known' moved)⟩
  | read others ih => exact ih state first
  | write other others ih => exact ⟨first.1, ih first.2⟩

end

/-- The program only makes calls of one kind, and never writes its own state. -/
def Only (kind : {β : Type} → Call β → Prop) : Prog Call σ ε α → Prop
  | .done _ => True
  | .fail _ => True
  | .hang => True
  | .call op next => kind op ∧ ∀ answer, (next answer).Only kind
  | .read next => ∀ state, (next state).Only kind
  | .write _ _ => False

section

variable {kind : {β : Type} → Call β → Prop}

theorem only_ask {op : Call α} (own : kind op) : Only kind (ask op : Prog Call σ ε α) := ⟨own, fun _ => trivial⟩

theorem only_ofExcept (value : Except ε α) : Only kind (ofExcept value : Prog Call σ ε α) := by
  cases value <;> trivial

/-- A sequence makes the calls of its parts. -/
theorem Only.bind {prog : Prog Call σ ε α} {next : α → Prog Call σ ε β} (first : prog.Only kind)
    (rest : ∀ result, (next result).Only kind) : (prog >>= next).Only kind := by
  change (prog.bind next).Only kind
  induction prog with
  | done result => exact rest result
  | fail error => trivial
  | hang => trivial
  | call op others ih => exact ⟨first.1, fun answer => ih answer (first.2 answer)⟩
  | read others ih => exact fun state => ih state (first state)
  | write state others ih => exact first.elim

theorem Only.attempt {prog : Prog Call σ ε α} (only : prog.Only kind) : prog.attempt.Only kind := by
  induction prog with
  | done result => trivial
  | fail error => trivial
  | hang => trivial
  | call op next ih => exact ⟨only.1, fun answer => ih answer (only.2 answer)⟩
  | read next ih => exact fun state => ih state (only state)
  | write state next ih => exact only

/-- A wider kind of call. -/
theorem Only.mono {prog : Prog Call σ ε α} {kind' : {β : Type} → Call β → Prop}
    (only : prog.Only kind) (wider : ∀ {β : Type} (op : Call β), kind op → kind' op) : prog.Only kind' := by
  induction prog with
  | done result => trivial
  | fail error => trivial
  | hang => trivial
  | call op next ih => exact ⟨wider op only.1, fun answer => ih answer (only.2 answer)⟩
  | read next ih => exact fun state => ih state (only state)
  | write state next ih => exact only

/-- What every call of the kind keeps, the program keeps. -/
theorem Only.keeps {contract : Contract Call σ γ} {prog : Prog Call σ ε α} {state : σ}
    (inv : γ → Prop) (only : prog.Only kind)
    (allowed : ∀ {β : Type} (op : Call β) known, inv known → kind op → contract.allows known state op)
    (kept : ∀ {β : Type} (op : Call β) known answer known', inv known → kind op →
      contract.moves known state op answer known' → inv known')
    {known : γ} (holds : inv known) :
    prog.Keeps contract (fun known' state' _ => inv known' ∧ state' = state) known state := by
  induction prog generalizing known with
  | done result => exact ⟨holds, rfl⟩
  | fail error => exact ⟨holds, rfl⟩
  | hang => trivial
  | call op next ih =>
    exact ⟨allowed op known holds only.1, fun answer known' moved =>
      ih answer (only.2 answer) (kept op known answer known' holds only.1 moved)⟩
  | read next ih => exact ih state (only state) holds
  | write other next ih => exact only.elim

end

/-- Every result of the program is of the given sort. -/
def Returns (sort : α → Prop) : Prog Call σ ε α → Prop
  | .done result => sort result
  | .fail _ => True
  | .hang => True
  | .call _ next => ∀ answer, (next answer).Returns sort
  | .read next => ∀ state, (next state).Returns sort
  | .write _ next => next.Returns sort

section

variable {sort : β → Prop}

theorem returns_bind {prog : Prog Call σ ε α} {next : α → Prog Call σ ε β}
    (rest : ∀ result, (next result).Returns sort) : (prog >>= next).Returns sort := by
  change (prog.bind next).Returns sort
  induction prog with
  | done result => exact rest result
  | fail error => trivial
  | hang => trivial
  | call op others ih => exact fun answer => ih answer
  | read others ih => exact fun state => ih state
  | write state others ih => exact ih

/-- What is known of all results may be assumed of the one a run ends with. -/
theorem Keeps.returns {contract : Contract Call σ γ} {post : γ → σ → Except ε β → Prop}
    {prog : Prog Call σ ε β} {known : γ} {state : σ} (keeps : prog.Keeps contract post known state)
    (returns : prog.Returns sort) :
    prog.Keeps contract (fun known state result =>
      post known state result ∧ ∀ value, result = .ok value → sort value) known state := by
  induction prog generalizing known state with
  | done result => exact ⟨keeps, fun value same => Except.ok.inj same ▸ returns⟩
  | fail error => exact ⟨keeps, fun value same => by cases same⟩
  | hang => trivial
  | call op next ih =>
    exact ⟨keeps.1, fun answer known' moved => ih answer (keeps.2 answer known' moved) (returns answer)⟩
  | read next ih => exact ih state keeps (returns state)
  | write other next ih => exact ⟨keeps.1, ih keeps.2 returns⟩

end

end Prog
end Ferrite.Logical
