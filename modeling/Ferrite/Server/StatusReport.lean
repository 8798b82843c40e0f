import Ferrite.Server.Footprint
import Ferrite.Server.Steps

/-!
# The reported transaction status

Whether a transaction is open is known to the engine session; what the client is told
is kept by the protocol session, which learns of it only through the result of the
last statement of a text. The two agree at every `ReadyForQuery` as long as a
statement that opens or closes the transaction is the last of its text, no `COMMIT`
or `ROLLBACK` fails, and no transaction is rolled back for its age.
-/

namespace Ferrite.Server

open Logical Catalog Sql Exec
open Logical.Prog (Keeps Only Returns keeps_pure keeps_ask_bind keeps_ofExcept
  keeps_getState keeps_setState returns_bind only_ofExcept)
open Protocol (Backend Frontend ProtocolError QueryResult SqlText FieldDescription Reports
  TransactionStatus statusAfter)
open Storage (Hasher)

/-! ## What statements do to the transaction -/

/-- `COMMIT` and `ROLLBACK`. -/
def endsTransaction : Statement → Bool
  | .commit | .rollback => true
  | _ => false

/-- The statement opens a transaction, or closes the one that is open. -/
def switches (wasOpen : Bool) : Statement → Bool
  | .begin => !wasOpen
  | .commit | .rollback => wasOpen
  | _ => false

/-- The session's transaction, if it has one, is not too old. -/
def withinBudget (inner : Inner) (state : SessionState) (now : Instant) : Bool :=
  match inner.transactionTimeout, state.openedAt with
  | some budget, some openedAt => now - openedAt < budget
  | _, _ => true

/-- A program that asks for the time is told one with the given property. -/
def ClockTells (told : Instant → Prop) : {β : Type} → Call β → β → Prop
  | _, .now, answer => told answer
  | _, _, _ => True

/-- No transaction is found to be too old; nothing else is expected. -/
def budgetContract (inner : Inner) : Contract Call SessionState Unit where
  allows _ _ _ := True
  moves _ state op answer _ := ClockTells (withinBudget inner state ·) op answer
  admits _ _ := True

/-- A statement has left the session's transaction as it should, and its result says so.
An error of `COMMIT` or `ROLLBACK` does not. -/
def Settles (statement : Statement) (wasOpen : Bool) (_ : Unit) (state : SessionState)
    (result : Except FerriteError QueryResult) : Prop :=
  match statement, result with
  | .begin, .ok value => value.transaction = some .inTransaction ∧ state.txn.isSome = true
  | .commit, .ok value => value.transaction = some .idle ∧ state.txn.isSome = false
  | .rollback, .ok value => value.transaction = some .idle ∧ state.txn.isSome = false
  | .commit, .error _ => True
  | .rollback, .error _ => True
  | _, .ok value => value.transaction = none ∧ state.txn.isSome = wasOpen
  | _, .error _ => state.txn.isSome = wasOpen

section

variable {inner : Inner} {α : Type}

def AnyCall : {β : Type} → Call β → Prop := fun _ => True

/-- A program that never writes the session's state leaves it as it was. -/
theorem only_budget {prog : Action α} (only : prog.Only AnyCall) (state : SessionState) :
    prog.Keeps (budgetContract inner) (fun _ after _ => after = state) () state :=
  (only.keeps (fun _ => True) (fun _ _ _ _ => trivial) (fun _ _ _ _ _ _ _ => trivial)
    trivial).mono fun _ _ _ holds => holds.2

/-- The session keeps its transaction, or keeps having none. -/
def KeepsTxn {β : Type} (before : SessionState) (_ : Unit) (after : SessionState)
    (_ : Except FerriteError β) : Prop := after.txn = before.txn

private theorem expire_keeps (txn : TxnId) (state : SessionState) :
    (inner.expireStaleTransaction txn).Keeps (budgetContract inner) (KeepsTxn state) () state := by
  rw [Inner.expireStaleTransaction]
  split
  next => exact keeps_pure rfl
  next budget timeout =>
    refine keeps_getState ?_
    split
    next => exact keeps_pure rfl
    next openedAt opened =>
      refine keeps_ask_bind trivial fun now _ told => ?_
      have young : now - openedAt < budget := by
        simpa [budgetContract, ClockTells, withinBudget, timeout, opened] using told
      rw [if_pos young]
      exact keeps_pure rfl

/-- A transaction around a statement leaves the session's transaction as the statement does. -/
theorem inTransaction_keeps {body : TxnId → Action α} {sort : α → Prop}
    (kept : ∀ txn state, (body txn).Keeps (budgetContract inner) (KeepsTxn state) () state)
    (returns : ∀ txn, (body txn).Returns sort) (state : SessionState) :
    (inner.inTransaction body).Keeps (budgetContract inner)
      (fun _ after result => after.txn = state.txn ∧ ∀ value, result = .ok value → sort value)
      () state := by
  refine keeps_getState ?_
  split
  next txn _ =>
    refine (expire_keeps txn state).bind (fun _ _ _ same => ⟨same, nofun⟩) fun _ middle _ same => ?_
    refine (only_budget (only_unitCall trivial) middle).bind
      (fun _ _ _ same' => ⟨same' ▸ same, nofun⟩) fun _ after _ same' => ?_
    refine ((kept txn after).returns (returns txn)).mono fun _ last result holds => ?_
    exact ⟨holds.1.trans (same' ▸ same), holds.2⟩
  next =>
    refine (only_budget (only_begin trivial) state).bind
      (fun _ _ _ same => ⟨same ▸ rfl, nofun⟩) fun _ middle txn same => ?_
    subst same
    refine ((kept txn middle).returns (returns txn)).attempt_bind fun _ after result holds => ?_
    cases result with
    | ok value =>
      refine (only_budget (only_attempted trivial) after).bind
        (fun _ _ _ same => ⟨same ▸ holds.1, nofun⟩) fun _ last _ same => keeps_pure ?_
      exact ⟨same ▸ holds.1, fun other same => Except.ok.inj same ▸ holds.2 value rfl⟩
    | error e =>
      refine (only_budget (only_unitCall trivial) after).attempt_bind fun _ last _ same => ?_
      exact ⟨same ▸ holds.1, nofun⟩

private theorem planAndExecute_keeps (caller : Identity) (statement : Statement) (txn : TxnId) (state : SessionState) :
    (inner.planAndExecute caller statement txn).Keeps (budgetContract inner) (KeepsTxn state) () state :=
  (only_budget ((only_planAndExecute inner caller statement txn).mono fun _ _ => trivial) state).mono
    fun _ _ _ same => congrArg SessionState.txn same

/-- Noting that a definition statement ran is all it does to the session. -/
theorem authorizedDdl_keeps (caller : Identity) (statement : Statement) (txn : TxnId) (state : SessionState) :
    (inner.authorizedDdl caller statement txn).Keeps (budgetContract inner) (KeepsTxn state) () state := by
  have body : ∀ middle : SessionState, middle.txn = state.txn →
      (inner.ddlBody statement txn).Keeps (budgetContract inner) (KeepsTxn state) () middle :=
    fun middle same => (only_budget ((only_ddlBody inner statement).mono fun _ _ => trivial) middle).mono
      fun _ _ _ same' => (congrArg SessionState.txn same').trans same
  refine (only_budget (only_ofExcept _) state).bind (fun _ _ _ same => congrArg SessionState.txn same)
    fun _ middle _ same => ?_
  subst same
  have noted : (Inner.noteDdl txn).Keeps (budgetContract inner) (KeepsTxn middle) () middle := by
    refine keeps_getState ?_
    split
    · exact keeps_setState trivial (keeps_pure rfl)
    · exact keeps_pure rfl
  exact noted.bind (fun _ _ _ same => same) fun _ _ _ same => body _ same

private theorem planAndExecute_returns (caller : Identity) (statement : Statement) (txn : TxnId) :
    (inner.planAndExecute caller statement txn).Returns (·.transaction = none) := by
  refine returns_bind fun _ => returns_bind fun result => ?_
  cases result <;> rfl

/-- A definition statement says nothing about the transaction. -/
theorem authorizedDdl_returns (caller : Identity) (statement : Statement) (txn : TxnId) :
    (inner.authorizedDdl caller statement txn).Returns (·.transaction = none) := by
  refine returns_bind fun _ => returns_bind fun _ => ?_
  cases statement with
  | createTable create =>
    refine returns_bind fun _ => ?_
    split
    · split <;> trivial
    · exact returns_bind fun _ => returns_bind fun _ => returns_bind fun _ => returns_bind fun _ => rfl
  | alterTable alter =>
    refine returns_bind fun _ => ?_
    split
    · split <;> trivial
    · refine returns_bind fun present => ?_
      split
      · rfl
      · exact returns_bind fun _ => returns_bind fun _ => returns_bind fun _ => rfl
  | dropTable drop => exact returns_bind fun _ => rfl
  | createIndex create =>
    refine returns_bind fun _ => ?_
    split
    · trivial
    · refine returns_bind fun _ => ?_
      split
      · split <;> trivial
      · exact returns_bind fun _ => returns_bind fun _ => rfl
  | dropIndex drop =>
    refine returns_bind fun _ => ?_
    split
    · exact returns_bind fun _ => rfl
    · split <;> trivial
  | _ => trivial

private theorem begin_settles (state : SessionState) :
    Inner.begin.Keeps (budgetContract inner) (Settles .begin state.txn.isSome) () state := by
  refine keeps_getState ?_
  split
  next =>
    refine (only_budget (only_begin trivial) state).bind (fun _ _ _ same => ?_) fun _ after txn same => ?_
    · exact congrArg (fun state : SessionState => state.txn.isSome) same
    · exact keeps_ask_bind trivial fun now _ _ => keeps_setState trivial (keeps_pure ⟨rfl, rfl⟩)
  next opened => exact keeps_pure ⟨rfl, by simpa [Option.isSome_iff_ne_none] using opened⟩

private theorem commit_settles (state : SessionState) :
    Inner.commit.Keeps (budgetContract inner) (Settles .commit state.txn.isSome) () state := by
  refine keeps_getState ?_
  split
  next closed => exact keeps_pure ⟨rfl, by rw [closed]; rfl⟩
  next txn opened =>
    refine keeps_setState trivial ?_
    refine (only_budget (only_attempted trivial) _).bind (fun _ _ _ _ => trivial) fun _ after _ same => ?_
    exact keeps_pure ⟨rfl, by rw [same]; rfl⟩

private theorem rollback_settles (state : SessionState) :
    inner.rollback.Keeps (budgetContract inner) (Settles .rollback state.txn.isSome) () state := by
  refine keeps_getState ?_
  split
  next closed => exact keeps_pure ⟨rfl, by rw [closed]; rfl⟩
  next txn opened =>
    refine keeps_setState trivial ?_
    refine (only_budget (only_unitCall trivial) _).attempt_bind fun _ after _ _ => keeps_setState trivial ?_
    have reloads : (inner.reloadIf state.ddl).Only AnyCall := by
      rw [Inner.reloadIf]
      split
      · exact only_reload _ trivial (fun _ _ => trivial) (fun _ _ _ => trivial)
          (fun _ => ⟨trivial, trivial⟩) fun _ _ => trivial
      · trivial
    refine (only_budget reloads _).bind (fun _ _ _ _ => trivial) fun _ last _ same => ?_
    exact keeps_pure ⟨rfl, by rw [same]; rfl⟩

def controls : Statement → Bool
  | .begin | .commit | .rollback => true
  | _ => false

/-- A statement that is not transaction control settles by leaving the transaction alone. -/
theorem settles_of_kept {statement : Statement} (plain : controls statement = false) {before after : SessionState}
    {result : Except FerriteError QueryResult} (known : Unit) (kept : after.txn = before.txn ∧
      ∀ value, result = .ok value → value.transaction = none) :
    Settles statement before.txn.isSome known after result := by
  have same : after.txn.isSome = before.txn.isSome := congrArg Option.isSome kept.1
  cases result with
  | ok value => cases statement <;> first | exact ⟨kept.2 value rfl, same⟩ | cases plain
  | error e => cases statement <;> first | exact same | cases plain

private theorem dispatch_settles (caller : Identity) (statement : Statement) (state : SessionState) :
    (inner.dispatch caller statement).Keeps (budgetContract inner) (Settles statement state.txn.isSome) () state := by
  have rows : ∀ other : Statement, controls other = false →
      (inner.inTransaction (inner.planAndExecute caller other)).Keeps (budgetContract inner)
        (Settles other state.txn.isSome) () state := fun other plain =>
    (inTransaction_keeps (fun _ _ => planAndExecute_keeps caller other _ _)
      (fun _ => planAndExecute_returns caller other _) state).mono
      fun known _ _ kept => settles_of_kept plain known kept
  have definition : ∀ other : Statement, controls other = false →
      (inner.inTransaction (inner.authorizedDdl caller other)).Keeps (budgetContract inner)
        (Settles other state.txn.isSome) () state := fun other plain =>
    (inTransaction_keeps (fun _ _ => authorizedDdl_keeps caller other _ _)
      (fun _ => authorizedDdl_returns caller other _) state).mono
      fun known _ _ kept => settles_of_kept plain known kept
  cases statement with
  | begin => exact begin_settles state
  | commit => exact commit_settles state
  | rollback => exact rollback_settles state
  | createTable _ | alterTable _ | dropTable _ | createIndex _ | dropIndex _ => exact definition _ rfl
  | _ => exact rows _ rfl

end

/-! ## Connections -/

/-- The client has been told whether a transaction is open. -/
def Agrees (conn : Connection) : Prop := conn.protocol.transaction = .idle ↔ conn.state.txn.isSome = false

/-- What holds of a connection between two steps. A statement in progress settles
relative to the transaction the client knows of; one with others to come leaves it. -/
def Truthful (inner : Inner) (conn : Connection) : Prop :=
  match conn.job with
  | none => conn.closed = false → Agrees conn
  | some (.statement _ statement rest prog) =>
    ∃ wasOpen, (conn.protocol.transaction = .idle ↔ wasOpen = false) ∧
      (rest ≠ [] → switches wasOpen statement = false) ∧
      prog.Keeps (budgetContract inner) (Settles statement wasOpen) () conn.state
  | some (.describe _ _ prog) => Agrees conn ∧ prog.Only AnyCall
  | some (.drop _) => conn.closed = true

/-- The first of several statements leaves the transaction open or closed as it is. -/
def startsWell (state : SessionState) : List Statement → Bool
  | statement :: _ :: _ => !switches state.txn.isSome statement
  | _ => true

def asksTime {α : Type} : Action α → Bool
  | .call .now _ => true
  | _ => false

/-- The condition on one step of a job. -/
def orderlyJob (inner : Inner) (state : SessionState) (moment : Moment) : Job → Bool
  | .statement _ statement _ (.fail _) => !endsTransaction statement
  | .statement _ _ rest (.done _) => startsWell state rest
  | .statement _ _ _ prog => !asksTime prog || withinBudget inner state moment.now
  | _ => true

/-- The inputs that keep the two sessions together: no statement but the last of a text
opens or closes the transaction, no `COMMIT` or `ROLLBACK` fails, and a session that
looks at the clock finds its transaction within the budget. -/
def orderly (inner : Inner) (system : System) : Input → Bool
  | .receive id message =>
    match (system.connections id).asksText message with
    | some (_, .ok statements) => startsWell (system.connections id).state statements
    | _ => true
  | .work id moment =>
    match (system.connections id).job with
    | some job => orderlyJob inner (system.connections id).state moment job
    | none => true

section

variable {inner : Inner} {hasher : Hasher} {moment : Moment} {db : Database} {conn : Connection}

variable {state : SessionState} {statement : Statement} {answer : List Backend × Connection} {wasOpen : Bool}

private theorem answered_budget {α : Type} (prog : Action α)
    (young : asksTime prog = true → withinBudget inner state moment.now = true) :
    Answered (budgetContract inner) hasher moment db () state prog () := by
  cases prog with
  | call op next => cases op <;> first | exact young rfl | trivial
  | _ => rfl

private theorem orderlyJob_young {task : Task} {rest : List Statement} {prog : Action QueryResult}
    (met : orderlyJob inner state moment (.statement task statement rest prog) = true) (asks : asksTime prog = true) :
    withinBudget inner state moment.now = true := by
  cases prog with
  | call op next => simpa [orderlyJob, asks] using met
  | _ => cases asks

/-- A program that never writes the session's state never will. -/
theorem only_advance {α : Type} {kind : {β : Type} → Call β → Prop} {prog : Action α} (only : prog.Only kind) :
    (Connection.advance hasher moment db state prog).1.Only kind ∧
      (Connection.advance hasher moment db state prog).2.1 = state := by
  cases prog with
  | call op next => exact ⟨only.2 _, rfl⟩
  | read next => exact ⟨only state, rfl⟩
  | write other next => exact only.elim
  | _ => exact ⟨only, rfl⟩

/-- A step ends in a truthful state, and what it reports is true there. -/
def Goes (inner : Inner) (answer : List Backend × Connection) : Prop :=
  Truthful inner answer.2 ∧ ∀ status, .readyForQuery status ∈ answer.1 →
    (status = .idle ↔ answer.2.state.txn.isSome = false)

/-- The end of a handler call that left the two sessions in agreement. -/
theorem Ends.goes (ends : Ends inner conn answer)
    (agrees : answer.2.protocol.transaction = .idle ↔ conn.state.txn.isSome = false) : Goes inner answer := by
  rw [← ends.state] at agrees
  refine ⟨?_, fun status sent => by rw [ends.reports status sent]; exact agrees⟩
  rw [Truthful]
  rcases ends.job with ⟨none, _⟩ | ⟨drop, closed⟩
  · rw [none]
    exact fun _ => agrees
  · rw [drop]
    exact closed

private theorem goes_silently {next : Connection} (truthful : Truthful inner next) : Goes inner ([], next) :=
  ⟨truthful, fun _ sent => by cases sent⟩

/-- Going on with a text, from a state the client knows of. -/
theorem runText_truthful (task : Task) (last : QueryResult) (statements : List Statement)
    (starts : startsWell conn.state statements = true) (told : statements ≠ [] → Agrees conn)
    (settled : statements = [] → (statusAfter conn.protocol last = .idle ↔ conn.state.txn.isSome = false)) :
    Goes inner (conn.runText inner task last statements) := by
  cases statements with
  | nil =>
    obtain ⟨ends, status⟩ := @finishText_ok inner conn task last
    exact ends.goes (status.trans (settled rfl))
  | cons statement rest =>
    refine ⟨⟨conn.state.txn.isSome, told nofun, fun more => ?_, dispatch_settles _ _ _⟩,
      fun sent member => by cases member⟩
    cases rest with
    | nil => exact absurd rfl more
    | cons next others => simpa [startsWell] using starts

private theorem Settles.failed {error : FerriteError} (settles : Settles statement wasOpen () state (.error error))
    (stays : endsTransaction statement = false) : state.txn.isSome = wasOpen := by
  cases statement <;> first | exact settles | cases stays

private theorem Settles.unswitched {result : QueryResult} (settles : Settles statement wasOpen () state (.ok result))
    (plain : switches wasOpen statement = false) : state.txn.isSome = wasOpen := by
  cases statement with
  | begin =>
    cases wasOpen with
    | true => exact settles.2
    | false => cases plain
  | commit | rollback => exact settles.2.trans plain.symm
  | _ => exact settles.2

/-- The status the last statement of a text leaves is the true one. -/
theorem Settles.status {result : QueryResult} {session : Protocol.Session}
    (settles : Settles statement wasOpen () state (.ok result)) (told : session.transaction = .idle ↔ wasOpen = false) :
    statusAfter session result = .idle ↔ state.txn.isSome = false := by
  rw [statusAfter]
  cases statement with
  | begin | commit | rollback => simp [settles.1, settles.2]
  | _ => simpa [settles.1, settles.2] using told

private theorem work_goes {after : Database} (worked : Works inner hasher moment conn db answer after)
    (truthful : Truthful inner conn)
    (met : ∀ job, conn.job = some job → orderlyJob inner conn.state moment job = true) : Goes inner answer := by
  cases worked with
  | idle job => exact goes_silently truthful
  | finished job =>
    rw [Truthful, job] at truthful
    obtain ⟨wasOpen, told, plain, settles⟩ := truthful
    refine runText_truthful _ _ _ (met _ job) (fun more => ?_) fun _ => settles.status told
    rw [Agrees, settles.unswitched (plain more)]
    exact told
  | failed job =>
    rw [Truthful, job] at truthful
    obtain ⟨wasOpen, told, _, settles⟩ := truthful
    obtain ⟨ends, status⟩ := @finishText_error inner conn _ _
    refine ends.goes (status.trans ?_)
    rw [settles.failed (by simpa [orderlyJob] using met _ job)]
    exact told
  | executing job running =>
    rw [Truthful, job] at truthful
    obtain ⟨wasOpen, told, plain, keeps⟩ := truthful
    exact goes_silently ⟨wasOpen, told, plain, keeps_advance keeps (answered_budget _ (orderlyJob_young (met _ job)))⟩
  | described job =>
    rw [Truthful, job] at truthful
    obtain ⟨ends, status⟩ := @finishDescribe_ends inner conn _ _ _
    exact ends.goes (status.trans truthful.1)
  | undescribed job =>
    rw [Truthful, job] at truthful
    obtain ⟨ends, status⟩ := @raise_ends inner conn (.ferrite _)
    exact ends.goes (status.trans truthful.1)
  | describing job running =>
    rw [Truthful, job] at truthful
    obtain ⟨only, same⟩ := only_advance truthful.2
    refine goes_silently ⟨?_, only⟩
    rw [Agrees, same]
    exact truthful.1
  | dropped job ended =>
    rw [Truthful, job] at truthful
    exact goes_silently fun unclosed => by simp [truthful] at unclosed
  | dropping job running =>
    rw [Truthful, job] at truthful
    exact goes_silently truthful

private theorem receive_goes {message : Frontend} (received : Receives inner conn message answer)
    (truthful : Truthful inner conn) (met : ∀ task statements, conn.asksText message = some (task, .ok statements) →
      startsWell conn.state statements = true) : Goes inner answer := by
  have agrees : conn.closed = false → conn.job = none → Agrees conn := fun unclosed idle => by
    rw [Truthful, idle] at truthful
    exact truthful unclosed
  cases received with
  | unread busy => exact goes_silently truthful
  | replied unclosed idle dispatched =>
    obtain ⟨same, reports⟩ := conn.protocol.dispatch_replied dispatched
    have here := agrees unclosed idle
    rw [Agrees, ← same] at here
    refine ⟨?_, fun status sent => ?_⟩
    · rw [Truthful, idle]
      exact fun _ => here
    · rw [reports status sent, ← same]
      exact here
  | raised unclosed idle dispatched =>
    obtain ⟨ends, status⟩ := @raise_ends inner conn _
    exact ends.goes (status.trans (agrees unclosed idle))
  | closes unclosed idle => exact goes_silently (rfl : true = true)
  | text unclosed idle asked =>
    rename_i parsed
    have here := agrees unclosed idle
    cases parsed with
    | error e =>
      obtain ⟨ends, status⟩ := @finishText_error inner conn _ _
      exact ends.goes (status.trans here)
    | ok statements => exact runText_truthful _ _ _ (met _ _ asked) (fun _ => here) fun _ => here
  | describes unclosed idle => exact goes_silently ⟨agrees unclosed idle, (only_describe _).mono fun _ _ => trivial⟩

end

/-! ## Runs -/

/-- What holds of every connection between two steps. -/
def AllTruthful (inner : Inner) (system : System) : Prop := ∀ id, Truthful inner (system.connections id)

private theorem step_truthful (inner : Inner) (hasher : Hasher) (system : System) (input : Input)
    (truthful : AllTruthful inner system) (met : orderly inner system input = true) :
    AllTruthful inner (system.step inner hasher input).2 ∧
      ∀ status, .readyForQuery status ∈ (system.step inner hasher input).1 → (status = .idle ↔
          ((system.step inner hasher input).2.connections input.conn).state.txn.isSome = false) := by
  have elsewhere : ∀ {id conn database}, Truthful inner conn →
      ∀ other, Truthful inner ((system.set id conn database).connections other) := by
    intro id conn database here other
    rw [System.set]
    dsimp only
    split
    · exact here
    · exact truthful other
  cases input with
  | receive id message =>
    obtain ⟨here, reported⟩ := receive_goes (receives inner (system.connections id) message)
      (truthful id) fun _ _ asked => by simpa [orderly, asked] using met
    refine ⟨elsewhere here, fun status sent => ?_⟩
    simpa [System.step, System.set, Input.conn] using reported status sent
  | work id moment =>
    obtain ⟨here, reported⟩ :=
      work_goes (works inner hasher moment (system.connections id) system.database) (truthful id)
        fun _ busy => by simpa [orderly, busy] using met
    refine ⟨elsewhere here, fun status sent => ?_⟩
    simpa [System.step, System.set, Input.conn] using reported status sent

/-- In every run of orderly steps, a `ReadyForQuery` carries `I` exactly if the engine
session holds no transaction when it is sent, and `T` or `E` exactly if it holds one. -/
theorem ready_for_query_reports_the_transaction (inner : Inner) (hasher : Hasher) (database : Database)
    (callers : ConnId → Identity) (inputs : List Input) (input : Input)
    (met : Machine.Meets (System.step inner hasher) (fun system input => orderly inner system input)
      (System.start database callers) (inputs ++ [input])) (status : TransactionStatus) :
    let before := (Machine.run (System.step inner hasher) (System.start database callers) inputs).2
    let after := before.step inner hasher input
    .readyForQuery status ∈ after.1 → (status.code = 'I' ↔ (after.2.connections input.conn).state.txn = none) ∧
      (status.code = 'T' ∨ status.code = 'E' ↔ (after.2.connections input.conn).state.txn ≠ none) := by
  intro before after sent
  obtain ⟨met, last⟩ := Machine.meets_append.mp met
  have truthful : AllTruthful inner before :=
    Machine.run_invariant (fun system input holds met => (step_truthful _ _ system input holds met).1)
      (fun _ _ => by simp [Agrees, System.start, Connection.new, Protocol.Session.new,
        SessionState.default]) met
  have told : status = .idle ↔ (after.2.connections input.conn).state.txn = none := by
    rw [← Option.isNone_iff_eq_none, ← Option.isSome_eq_false_iff]
    exact (step_truthful inner hasher before input truthful last.1).2 status sent
  cases status <;> simp_all [TransactionStatus.code]

/-- A `SELECT` in a block of its own text: the block is reported open. -/
theorem ready_for_query_reports_an_open_block :
    let inputs := send 0 [createOfInt "t"] 11 ++ send 0 [.begin] 5 ++ send 0 [selectAll "t"] 7
    let before := (Machine.run (System.step openServer fun _ => 0) (freshSystem fun _ => 0) inputs).2
    let after := before.step openServer (fun _ => 0) (.work 0 .calm)
    .readyForQuery .inTransaction ∈ after.1 ∧ (after.2.connections 0).state.txn ≠ none := by
  intro inputs before after
  have sent : .readyForQuery .inTransaction ∈ after.1 := by decide +kernel
  have told := ready_for_query_reports_the_transaction openServer (fun _ => 0)
    (.create .decimal (fun _ => 0) 16) (fun _ => 0) inputs (.work 0 .calm) (by decide +kernel) .inTransaction sent
  exact ⟨sent, told.2.mp (.inl rfl)⟩

/-- `BEGIN; SELECT * FROM t` in one text opens a transaction the client is not told of. -/
theorem begin_followed_by_select_is_reported_idle :
    let before := (Machine.run (System.step openServer fun _ => 0) (freshSystem fun _ => 0)
      (send 0 [createOfInt "t"] 11 ++ send 0 [.begin, selectAll "t"] 12)).2
    let after := before.step openServer (fun _ => 0) (.work 0 .calm)
    .readyForQuery .idle ∈ after.1 ∧ (after.2.connections 0).state.txn = some 4 := by
  decide +kernel

end Ferrite.Server
