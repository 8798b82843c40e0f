import Ferrite.Server.StatusReport

/-!
# Error replies and commits

Outside an explicit transaction a statement is committed by the handler call that runs
it, before its result is encoded. What a call has written and committed is kept beside
the server here. A statement that fails has committed nothing of its own, unless storage
refused its commit; but the statements before it in its text have, and a result the call
hands back can still be turned into an error, if the result formats its portal was bound
with do not fit it.
-/

namespace Ferrite.Storage

/-- The transaction a storage call writes for. -/
def Op.writes : Op → Option TxnId
  | .insertUnique txn _ _ _ | .updateUnique txn _ _ _ _ | .delete txn _ _ | .createTable txn _
  | .dropTable txn _ => some txn
  | _ => none

end Ferrite.Storage

namespace Ferrite.Server

open Logical Catalog Sql Exec
open Logical.Prog (Keeps Only keeps_pure keeps_ask_bind keeps_ofExcept keeps_getState
  keeps_setState only_ofExcept)
open Protocol (Backend Frontend ProtocolError QueryResult SqlText FieldDescription resolveFormats)
open Storage (Hasher Op Outcome)

def reportsError (frames : List Backend) : Bool :=
  frames.any fun frame => match frame with | .errorResponse _ _ => true | _ => false

/-- What a handler call has done: the transactions it has written in, whether it has
committed one of them, now and when its current statement started, and whether a commit
was refused. -/
structure Deeds where
  written : List TxnId
  effects : Bool
  settled : Bool
  refused : Bool

namespace Deeds

/-- The answer to a storage call: a transaction that begins has written nothing. -/
def stored (deeds : Deeds) (op : Op) : Outcome → Deeds
  | .failed _ => deeds
  | .began txn => { deeds with written := deeds.written.filter (· ≠ txn) }
  | _ => match op.writes with
    | some txn => { deeds with written := txn :: deeds.written }
    | none => deeds

/-- The answer to a call of the program. -/
def told (deeds : Deeds) : {β : Type} → Call β → β → Deeds
  | _, .storage op, outcome => deeds.stored op outcome
  | _, .commit txn, .ok _ => { deeds with effects := deeds.effects || deeds.written.contains txn }
  | _, .commit _, .error _ => { deeds with refused := true }
  | _, _, _ => deeds

/-- The account of a call that has done nothing. -/
def none : Deeds := ⟨[], false, false, false⟩

/-- One step of a statement; the next one starts from what is committed by then. -/
def worked (hasher : Hasher) (moment : Moment) (db : Database) (conn : Connection) (deeds : Deeds) : Deeds :=
  match conn.job with
  | some (.statement _ _ _ (.call op _)) => deeds.told op (db.answer hasher moment op).1
  | some (.statement _ _ _ (.done _)) => { deeds with settled := deeds.effects }
  | _ => deeds

/-- What an input adds to the account of its connection: a message that is read starts a
new one. -/
def noted (hasher : Hasher) (system : System) (deeds : Deeds) : Input → Deeds
  | .receive id _ =>
    let conn := system.connections id
    if conn.closed || conn.job.isSome then deeds else none
  | .work id moment => deeds.worked hasher moment system.database (system.connections id)

end Deeds

/-- The server, and what the handler call of each connection has done. -/
structure Observed : Type 1 where
  system : System
  deeds : ConnId → Deeds

namespace Observed

def start (database : Database) (callers : ConnId → Identity) : Observed :=
  ⟨.start database callers, fun _ => .none⟩

def step (inner : Inner) (hasher : Hasher) (observed : Observed) (input : Input) : List Backend × Observed :=
  let answer := observed.system.step inner hasher input
  (answer.1, ⟨answer.2, fun other =>
    if other = input.conn then (observed.deeds other).noted hasher observed.system input
    else observed.deeds other⟩)

end Observed

/-- The result formats a portal was bound with fit a result. -/
def FormatsFit (session : Protocol.Session) (portal : String) (result : QueryResult) : Prop :=
  ∃ bound, session.portals portal = some bound ∧ (result.emptyQuery = true ∨ bound.resultFormats.length ≤ 1 ∨
      bound.resultFormats.length = result.fields.length)

/-- No error that the next step reports comes after a committed write: a statement has
failed before any other of its text committed one, and the last result of a text that
did fits the portal it is sent for. -/
def Harmless (observed : Observed) : Input → Prop
  | .receive _ _ => True
  | .work id _ =>
    let conn := observed.system.connections id
    (∀ task statement rest error, conn.job = some (.statement task statement rest (.fail error)) →
      (observed.deeds id).settled = false) ∧
    ∀ portal maxRows statement result,
      conn.job = some (.statement (.execute portal maxRows) statement [] (.done result)) →
      (observed.deeds id).effects = true → FormatsFit conn.protocol portal result

/-! ## What is reported -/

section

variable {session : Protocol.Session} {name : String} {maxRows : Int} {result : QueryResult}

private theorem resolveFormats_isOk {codes : List Protocol.Format} {count : Nat} :
    (∃ formats, resolveFormats codes count = .ok formats) ↔ codes.length ≤ 1 ∨ codes.length = count := by
  rcases codes with _ | ⟨first, _ | ⟨second, rest⟩⟩
  · simp [resolveFormats]
  · simp [resolveFormats]
  · simp only [resolveFormats]
    split
    next fits => simp [fits]
    next misfits => simpa using misfits

/-- Delivering a result fails exactly if the formats of the portal do not fit it. -/
theorem deliver_isOk {bound : Protocol.Portal} {pending : Protocol.Pending}
    (found : session.portals name = some bound) (result : bound.pending = some pending) :
    (∃ answer, session.deliver name maxRows = .ok answer) ↔ pending.emptyQuery = true ∨
      bound.resultFormats.length ≤ 1 ∨ bound.resultFormats.length = pending.fieldCount := by
  have lookup : session.portal name = .ok bound := by rw [Protocol.Session.portal, found]
  rw [Protocol.Session.deliver, lookup, ← resolveFormats_isOk]
  simp only [bind, Except.bind, result]
  split
  next empty => simp [empty, pure, Except.pure]
  next full =>
    cases resolved : resolveFormats bound.resultFormats pending.fieldCount with
    | error e => simp [full]
    | ok formats =>
      simp only [full]
      split <;> simp [pure, Except.pure]

/-- What the handler hands back for a portal can be sent exactly if the formats fit. -/
theorem finishExecute_isOk : (∃ answer, session.finishExecute name maxRows (.ok result) = .ok answer) ↔
    FormatsFit session name result := by
  rw [Protocol.Session.finishExecute, FormatsFit]
  dsimp only
  cases found : session.portals name with
  | none => simp [Protocol.Session.portal, found]
  | some bound =>
    have lookup : (session.applyTransaction result).portal name = .ok bound := by
      rw [Protocol.Session.portal, Protocol.Session.portals_applyTransaction, found]
    simp only [lookup, Option.some.injEq, exists_eq_left']
    let pending : Protocol.Pending :=
      ⟨result.fields.length, result.rows, result.tag, 0, result.emptyQuery⟩
    let next := ((session.applyTransaction result).learnFields bound.statement result.fields).setPortal name
      { bound with pending := some pending }
    have installed : next.portals name = some { bound with pending := some pending } := if_pos rfl
    refine Iff.trans ?_ (@deliver_isOk next name maxRows _ _ installed rfl)
    split
    next failed => simp [show next.deliver name maxRows = _ from failed]
    next answer sent => simp [show next.deliver name maxRows = _ from sent]

private theorem reportsError_append (first second : List Backend) :
    reportsError (first ++ second) = (reportsError first || reportsError second) := by
  simp [reportsError]

private theorem deliver_reportsError {answer : List Backend × Protocol.Session}
    (delivered : session.deliver name maxRows = .ok answer) : reportsError answer.1 = false := by
  have rows : ∀ (rows : List Row) formats, reportsError (rows.map fun row => .dataRow row formats) = false := by
    simp [reportsError]
  rw [Protocol.Session.deliver] at delivered
  obtain ⟨bound, -, delivered⟩ := bind_eq_ok.mp delivered
  split at delivered
  · cases delivered
    rfl
  split at delivered
  · cases delivered
    rfl
  obtain ⟨formats, -, delivered⟩ := bind_eq_ok.mp delivered
  dsimp only at delivered
  split at delivered
  all_goals
    cases delivered
    rw [reportsError_append, rows]
    rfl

private theorem finishExecute_reportsError {answer : List Backend × Protocol.Session}
    (finished : session.finishExecute name maxRows (.ok result) = .ok answer) : reportsError answer.1 = false := by
  rw [Protocol.Session.finishExecute] at finished
  dsimp only at finished
  split at finished
  · cases finished
  split at finished
  · cases finished
  next delivered =>
    cases finished
    exact deliver_reportsError delivered

private theorem queryFrames_reportsError : reportsError (Protocol.Session.queryFrames result) = false := by
  rw [Protocol.Session.queryFrames]
  split
  · rfl
  · simp only [reportsError_append]
    split <;> simp [reportsError]

variable {inner : Inner} {conn : Connection}

private theorem raise_reportsError (error : ProtocolError) : reportsError (conn.raise inner error).1 = true := by
  rw [Connection.raise]
  split <;> rfl

/-- A text that ran to its end is answered with an error exactly if an `Execute` asked
for it and the formats do not fit. -/
theorem finishText_ok_reportsError (task : Task) : reportsError (conn.finishText inner task (.ok result)).1 = true ↔
      ∃ portal maxRows, task = .execute portal maxRows ∧ ¬ FormatsFit conn.protocol portal result := by
  cases task with
  | query =>
    simp [Connection.finishText, Protocol.Session.finishQuery, reportsError_append, queryFrames_reportsError]
    rfl
  | execute portal maxRows =>
    have fits := @finishExecute_isOk conn.protocol portal maxRows result
    rw [Connection.finishText]
    split
    next answer sent => simp [finishExecute_reportsError sent, fits.mp ⟨answer, sent⟩]
    next raised failed =>
      have misfits : ¬ FormatsFit conn.protocol portal result := by
        rw [← fits, failed]
        simp
      simp [raise_reportsError, misfits]

/-- A text that failed is answered with an error. -/
theorem finishText_error_reportsError (task : Task) (error : FerriteError) :
    reportsError (conn.finishText inner task (.error error)).1 = true := by
  cases task with
  | query => rfl
  | execute portal maxRows => exact raise_reportsError _

end

/-! ## What a statement commits -/

/-- What a program is told is all that is known of it. -/
def accounts : Contract Call SessionState Deeds where
  allows _ _ _ := True
  moves known _ op answer known' := known' = known.told op answer
  admits _ _ := True

/-- The current statement has committed nothing it wrote, unless a commit was refused. -/
def Deeds.Clean (deeds : Deeds) : Prop := deeds.refused = true ∨ deeds.effects = deeds.settled

/-- The program commits nothing that was written, whatever its result. -/
def Quiet {α : Type} (prog : Action α) : Prop :=
  ∀ deeds state, deeds.Clean → prog.Keeps accounts (fun known _ _ => known.Clean) deeds state

/-- A statement that fails has committed nothing it wrote, unless its commit was refused. -/
def Accounted (deeds : Deeds) (_ : SessionState) : Except FerriteError QueryResult → Prop
  | .ok _ => True
  | .error _ => deeds.Clean

section

variable {inner : Inner} {α β : Type} {txn : TxnId} {deeds : Deeds} {state : SessionState} {prog : Action α}

/-- The call is no commit. -/
def NoCommit : {β : Type} → Call β → Prop
  | _, .commit _ => False
  | _, _ => True

/-- The call is a step of a scan. -/
def Reads : {β : Type} → Call β → Prop
  | _, .openScan _ _ | _, .scanNext _ _ _ => True
  | _, _ => False

/-- Only commits touch what is known to be committed. -/
theorem told_of_noCommit {op : Call β} (other : NoCommit op) (answer : β) :
    (deeds.told op answer).effects = deeds.effects ∧ (deeds.told op answer).settled = deeds.settled ∧
      (deeds.told op answer).refused = deeds.refused := by
  cases op with
  | storage op =>
    change (deeds.stored op answer).effects = _ ∧ (deeds.stored op answer).settled = _ ∧
      (deeds.stored op answer).refused = _
    unfold Deeds.stored
    repeat' split
    all_goals exact ⟨rfl, rfl, rfl⟩
  | commit txn => exact other.elim
  | _ => exact ⟨rfl, rfl, rfl⟩

private theorem clean_told {op : Call β} (other : NoCommit op) (answer : β) (clean : deeds.Clean) :
    (deeds.told op answer).Clean := by
  obtain ⟨effects, settled, refused⟩ := @told_of_noCommit _ deeds op other answer
  rwa [Deeds.Clean, effects, settled, refused]

private theorem Quiet.bind {next : α → Action β} (first : Quiet prog) (rest : ∀ value, Quiet (next value)) :
    Quiet (prog >>= next) := fun deeds state clean =>
  (first deeds state clean).bind (fun _ _ _ clean => clean) fun known after value => rest value known after

private theorem Quiet.attempt_bind {next : Except FerriteError α → Action β} (first : Quiet prog)
    (rest : ∀ value, Quiet (next value)) : Quiet (prog.attempt >>= next) := fun deeds state clean =>
  (first deeds state clean).attempt_bind fun known after value => rest value known after

private theorem quiet_getState {next : SessionState → Action α} (rest : ∀ state, Quiet (next state)) :
    Quiet (Prog.getState >>= next) := fun deeds state clean => keeps_getState (rest state deeds state clean)

private theorem quiet_setState {next : Unit → Action α} (other : SessionState) (rest : Quiet (next ())) :
    Quiet (Prog.setState other >>= next) := fun deeds _ clean => keeps_setState trivial (rest deeds other clean)

private theorem quiet_pure (value : α) : Quiet (pure value : Action α) := fun _ _ clean => clean

private theorem quiet_fail (error : FerriteError) : Quiet (.fail error : Action α) := fun _ _ clean => clean

/-- Whatever makes no commit is quiet. -/
theorem quiet_of_only (only : prog.Only NoCommit) : Quiet prog := by
  intro deeds state clean
  have kept : prog.Keeps accounts (fun known after _ => known.Clean ∧ after = state) deeds state := by
    refine only.keeps Deeds.Clean (fun _ _ _ _ => trivial) ?_ clean
    rintro _ op known answer _ clean other rfl
    exact clean_told other answer clean
  exact kept.mono fun _ _ _ holds => holds.1

private theorem quiet_ask {op : Call α} (other : NoCommit op) : Quiet (Prog.ask op : Action α) :=
  quiet_of_only (Logical.Prog.only_ask other)

private theorem quiet_abort (txn : TxnId) : Quiet (Action.abort txn) := quiet_of_only (only_unitCall trivial)

/-- A commit is refused, or of what was written. -/
theorem commitCall_accounted : (Action.commit txn).Keeps accounts (fun known _ result =>
      match result with
      | .ok _ => known = { deeds with effects := deeds.effects || deeds.written.contains txn }
      | .error _ => known.refused = true) deeds state := by
  refine keeps_ask_bind trivial fun outcome known moved => keeps_ofExcept ?_
  cases outcome <;> exact moved ▸ rfl

/-- A transaction that has just begun has written nothing. -/
theorem begin_accounted (clean : deeds.Clean) : Action.begin.Keeps accounts
    (fun known _ result => known.Clean ∧ ∀ txn, result = .ok txn → txn ∉ known.written) deeds state := by
  refine keeps_ask_bind trivial fun outcome known moved => ?_
  have clean : known.Clean := Eq.symm moved ▸ @clean_told _ _ (.storage .begin) trivial outcome clean
  cases outcome with
  | began txn =>
    refine ⟨clean, ?_⟩
    rintro _ ⟨⟩
    rw [show known = _ from moved]
    simp [Deeds.told, Deeds.stored]
  | failed e => exact ⟨clean, nofun⟩
  | _ => trivial

/-- A reload commits a transaction it has only read in. -/
theorem quiet_reload (formats : TextFormats) : Quiet (reload formats) := by
  intro deeds state clean
  refine (begin_accounted clean).bind (fun _ _ _ holds => holds.1) fun known after txn fresh => ?_
  have reads : (readAll formats txn).Keeps accounts (fun known' after' _ =>
      (known'.Clean ∧ txn ∉ known'.written) ∧ after' = after) known after := by
    refine (@only_readAll Reads formats txn (fun _ => trivial) fun _ _ => trivial).keeps
      (fun known : Deeds => known.Clean ∧ txn ∉ known.written) (fun _ _ _ _ => trivial) ?_ ⟨fresh.1, fresh.2 txn rfl⟩
    rintro _ op known answer _ ⟨clean, unwritten⟩ reads rfl
    cases op <;> first | exact ⟨clean, unwritten⟩ | exact reads.elim
  refine reads.attempt_bind fun known' after' result holds => ?_
  obtain ⟨⟨clean, unwritten⟩, -⟩ := holds
  have finished : (finish txn result).Keeps accounts (fun known _ _ => known.Clean) known' after' := by
    cases result with
    | error e => exact (quiet_abort txn).attempt_bind (fun _ => quiet_fail e) _ _ clean
    | ok value =>
      refine commitCall_accounted.bind (fun _ _ _ refused => .inl refused) fun last _ _ committed => keeps_pure ?_
      simpa [committed, Deeds.Clean, unwritten] using clean
  exact finished.bind (fun _ _ _ clean => clean) fun last final read clean =>
    @quiet_ask _ (.rebuild read.1 read.2) trivial last final clean

private theorem quiet_reloadIf (ddl : Bool) : Quiet (inner.reloadIf ddl) := by
  rw [Inner.reloadIf]
  split
  · exact quiet_reload _
  · exact quiet_pure ()

private theorem quiet_expire (txn : TxnId) : Quiet (inner.expireStaleTransaction txn) := by
  rw [Inner.expireStaleTransaction]
  split
  · exact quiet_pure ()
  refine quiet_getState fun state => ?_
  split
  · exact quiet_pure ()
  refine (@quiet_ask _ .now trivial).bind fun now => ?_
  dsimp only
  split
  · exact quiet_pure ()
  · exact quiet_setState _ ((quiet_abort txn).attempt_bind fun _ => (quiet_reloadIf _).bind fun _ => quiet_fail _)

private theorem inTransaction_accounted {body : TxnId → Action QueryResult} (quiet : ∀ txn, Quiet (body txn))
    (clean : deeds.Clean) : (inner.inTransaction body).Keeps accounts Accounted deeds state := by
  refine keeps_getState ?_
  split
  next txn _ =>
    have whole := (@quiet_expire inner txn).bind fun _ =>
      Quiet.bind (quiet_of_only (only_unitCall trivial) : Quiet (Action.snapshot txn)) fun _ => quiet txn
    exact (whole deeds state clean).mono fun _ _ result clean => by cases result <;> trivial
  next =>
    refine (begin_accounted clean).bind (fun _ _ _ holds => holds.1) fun known after txn fresh => ?_
    refine (quiet txn known after fresh.1).attempt_bind fun known' after' result clean => ?_
    cases result with
    | ok value => exact commitCall_accounted.bind (fun _ _ _ refused => .inl refused) fun _ _ _ _ => keeps_pure trivial
    | error e => exact ((quiet_abort txn) known' after' clean).attempt_bind fun _ _ _ clean => clean

private theorem quiet_planAndExecute (caller : Identity) (statement : Statement) (txn : TxnId) :
    Quiet (inner.planAndExecute caller statement txn) :=
  quiet_of_only ((only_planAndExecute inner caller statement txn).mono fun op own => by
    cases op <;> trivial)

private theorem quiet_authorizedDdl (caller : Identity) (statement : Statement) (txn : TxnId) :
    Quiet (inner.authorizedDdl caller statement txn) := by
  have body : Quiet (inner.ddlBody statement txn) := quiet_of_only ((only_ddlBody inner statement).mono fun op own => by
    cases op <;> trivial)
  refine (quiet_of_only (only_ofExcept _)).bind fun _ => Quiet.bind ?_ fun _ => body
  refine quiet_getState fun state => ?_
  split
  · exact quiet_setState _ (quiet_pure ())
  · exact quiet_pure ()

/-- A statement settles its account, in whatever state of the session it runs. -/
theorem dispatch_accounted (caller : Identity) (statement : Statement) (clean : deeds.Clean) :
    (inner.dispatch caller statement).Keeps accounts Accounted deeds state := by
  have anyway {prog : Action QueryResult} (quiet : Quiet prog) : prog.Keeps accounts Accounted deeds state :=
    (quiet deeds state clean).mono fun _ _ result clean => by cases result <;> trivial
  cases statement with
  | begin =>
    refine anyway (quiet_getState fun state => ?_)
    split
    · exact (quiet_of_only (only_begin trivial)).bind fun txn =>
        (@quiet_ask _ .now trivial).bind fun now => quiet_setState _ (quiet_pure _)
    · exact quiet_pure _
  | commit =>
    refine keeps_getState ?_
    split
    · exact keeps_pure trivial
    · refine keeps_setState trivial ?_
      exact commitCall_accounted.bind (fun _ _ _ refused => .inl refused) fun _ _ _ _ => keeps_pure trivial
  | rollback =>
    refine anyway (quiet_getState fun state => ?_)
    split
    · exact quiet_pure _
    · exact quiet_setState _ ((quiet_abort _).attempt_bind fun _ => quiet_setState _
        ((quiet_reloadIf _).bind fun _ => quiet_pure _))
  | createTable _ | alterTable _ | dropTable _ | createIndex _ | dropIndex _ =>
    exact inTransaction_accounted (quiet_authorizedDdl caller _) clean
  | _ => exact inTransaction_accounted (quiet_planAndExecute caller _) clean

end

/-! ## Whole runs -/

/-- What holds of a connection and the account of its handler call between two steps. -/
def Accountable (deeds : Deeds) (conn : Connection) : Prop :=
  match conn.job with
  | some (.statement _ _ _ prog) => prog.Keeps accounts Accounted deeds conn.state
  | some (.describe _ _ _) => deeds.effects = false
  | _ => True

section

variable {inner : Inner} {hasher : Hasher} {moment : Moment} {db : Database} {deeds : Deeds}
  {conn : Connection}

variable {task : Task} {statement : Statement} {rest : List Statement}

private theorem accountable_of_ends {answer : List Backend × Connection} (ends : Ends inner conn answer) :
    Accountable deeds answer.2 := by
  rw [Accountable]
  rcases ends.job with ⟨idle, -⟩ | ⟨dropping, -⟩
  · rw [idle]
    trivial
  · rw [dropping]
    trivial

private theorem accountable_receive (accountable : Accountable deeds conn) (message : Frontend) :
    Accountable (if conn.closed || conn.job.isSome then deeds else .none) (conn.receive inner message).2 := by
  have taken := receives inner conn message
  generalize conn.receive inner message = answer at taken
  cases taken with
  | unread busy => rwa [if_pos busy]
  | replied unclosed idle dispatched => simp [Accountable, idle]
  | raised unclosed idle dispatched => exact accountable_of_ends (raise_ends _).1
  | closes unclosed idle => trivial
  | @text task parsed unclosed idle asked =>
    rcases parsed with error | _ | ⟨statement, rest⟩
    · exact accountable_of_ends (finishText_error task error).1
    · exact accountable_of_ends (finishText_ok task .empty).1
    · simp only [unclosed, idle, Option.isSome_none, Bool.or_self, Bool.false_eq_true, if_false]
      exact dispatch_accounted _ statement (.inr rfl)
  | describes unclosed idle => simp [Accountable, unclosed, idle, Deeds.none]

/-- The account of a running statement is what it is told. -/
theorem worked_answered {prog : Action QueryResult} (job : conn.job = some (.statement task statement rest prog))
    (running : Running prog) :
    Answered accounts hasher moment db deeds conn.state prog (deeds.worked hasher moment db conn) := by
  rw [Deeds.worked, job]
  cases prog <;> first | rfl | exact running.elim

private theorem accountable_work (accountable : Accountable deeds conn) :
    Accountable (deeds.worked hasher moment db conn) (conn.work inner hasher moment db).1.2 := by
  have worked := works inner hasher moment conn db
  generalize (conn.work inner hasher moment db).1 = answer at worked
  generalize (conn.work inner hasher moment db).2 = after at worked
  cases worked with
  | idle job => simp [Accountable, job]
  | @finished task statement rest result job =>
    cases rest with
    | nil => exact accountable_of_ends (finishText_ok task result).1
    | cons next rest =>
      rw [Deeds.worked, job]
      exact dispatch_accounted _ _ (.inr rfl)
  | failed job => exact accountable_of_ends (finishText_error _ _).1
  | executing job running =>
    rw [Accountable, job] at accountable
    exact keeps_advance accountable (worked_answered job running)
  | described job => exact accountable_of_ends (finishDescribe_ends _ _ _).1
  | undescribed job => exact accountable_of_ends (raise_ends _).1
  | describing job running =>
    rw [Accountable, job] at accountable
    simpa [Accountable, Deeds.worked, job] using accountable
  | dropped job ended => trivial
  | dropping job running => trivial

/-- Every connection's account is in order. -/
def Observed.Ok (observed : Observed) : Prop := ∀ id, Accountable (observed.deeds id) (observed.system.connections id)

private theorem observed_step (observed : Observed) (input : Input) (ok : observed.Ok) :
    (observed.step inner hasher input).2.Ok := by
  intro other
  cases input with
  | receive id message =>
    by_cases same : other = id
    · subst same
      simpa [Observed.step, Input.conn, System.step, System.set, Deeds.noted] using
        accountable_receive (ok other) message
    · simpa [Observed.step, Input.conn, System.step, System.set, same] using ok other
  | work id moment =>
    by_cases same : other = id
    · subst same
      simpa [Observed.step, Input.conn, System.step, System.set, Deeds.noted] using accountable_work (ok other)
    · simpa [Observed.step, Input.conn, System.step, System.set, same] using ok other

/-- The reply to a step of a handler call, when its account is in order. -/
theorem work_reply (accountable : Accountable deeds conn)
    (unrefused : (deeds.worked hasher moment db conn).refused = false) :
    (reportsError (conn.work inner hasher moment db).1.1 = true →
        (deeds.worked hasher moment db conn).effects = false) ↔
      (∀ task statement rest error, conn.job = some (.statement task statement rest (.fail error)) →
        deeds.settled = false) ∧
      ∀ portal maxRows statement result,
        conn.job = some (.statement (.execute portal maxRows) statement [] (.done result)) →
        deeds.effects = true → FormatsFit conn.protocol portal result := by
  have worked := works inner hasher moment conn db
  generalize (conn.work inner hasher moment db).1 = answer at worked
  generalize (conn.work inner hasher moment db).2 = after at worked
  cases worked with
  | idle job => simp [job, reportsError]
  | @finished task statement rest result job =>
    have same : (deeds.worked hasher moment db conn).effects = deeds.effects := by rw [Deeds.worked, job]
    cases rest with
    | cons next rest => simp [job, Connection.runText, reportsError]
    | nil =>
      rw [same, Connection.runText, finishText_ok_reportsError]
      simp only [job, Option.some.injEq, Job.statement.injEq]
      refine ⟨fun replied => ⟨by simp, ?_⟩, ?_⟩
      · rintro portal maxRows _ _ ⟨rfl, rfl, -, finished⟩ effects
        obtain rfl := Prog.done.inj finished
        by_contra misfit
        simp [replied ⟨portal, maxRows, rfl, misfit⟩] at effects
      · rintro ⟨-, fits⟩ ⟨portal, maxRows, rfl, misfits⟩
        exact Bool.eq_false_iff.mpr fun effects =>
          misfits (fits portal maxRows statement result ⟨rfl, rfl, trivial, rfl⟩ effects)
  | @failed task statement rest error job =>
    have same : deeds.worked hasher moment db conn = deeds := by rw [Deeds.worked, job]
    rw [Accountable, job] at accountable
    rw [same] at unrefused ⊢
    have clean : deeds.effects = deeds.settled := accountable.resolve_left (by simp [unrefused])
    simp only [job, finishText_error_reportsError, clean, true_imp_iff]
    exact ⟨fun settled => ⟨fun _ _ _ _ _ => settled, by simp⟩, fun harmless => harmless.1 task statement rest error rfl⟩
  | executing job running =>
    refine iff_of_true (fun reported => by simp [reportsError] at reported) ⟨?_, ?_⟩
    · intro task statement rest error isDone
      obtain ⟨-, -, -, rfl⟩ := Job.statement.inj (Option.some.inj (job.symm.trans isDone))
      exact running.elim
    · intro portal maxRows statement result isDone
      obtain ⟨-, -, -, rfl⟩ := Job.statement.inj (Option.some.inj (job.symm.trans isDone))
      exact running.elim
  | described job =>
    rw [Accountable, job] at accountable
    simp [Deeds.worked, job, accountable]
  | undescribed job =>
    rw [Accountable, job] at accountable
    simp [Deeds.worked, job, accountable]
  | describing job running => simp [job, reportsError]
  | dropped job ended => simp [job, reportsError]
  | dropping job running => simp [job, reportsError]

end

/-- A reply that reports an error says that the handler call has committed nothing it
wrote, if no commit was refused: exactly as long as a statement that fails follows none
that committed a write, and what an `Execute` sends after one fits the formats of its
portal. -/
theorem error_reply_commits_nothing_iff (inner : Inner) (hasher : Hasher) (database : Database)
    (callers : ConnId → Identity) (inputs : List Input) (input : Input) :
    let observed := (Machine.run (Observed.step inner hasher) (.start database callers) inputs).2
    let answer := observed.step inner hasher input
    let deeds := answer.2.deeds input.conn
    deeds.refused = false →
      ((reportsError answer.1 = true → deeds.effects = false) ↔ Harmless observed input) := by
  intro observed answer deeds unrefused
  have initial : (Observed.start database callers).Ok := fun _ => trivial
  have ok : observed.Ok := Machine.run_always observed_step initial inputs
  cases input with
  | receive id message =>
    refine iff_of_true (fun reported => ?_) trivial
    have noted : deeds = (observed.deeds id).noted hasher observed.system (.receive id message) := if_pos rfl
    rw [noted, Deeds.noted]
    split
    next busy =>
      have unread : answer.1 = [] := by
        change ((observed.system.connections id).receive inner message).1 = []
        rw [Connection.receive, if_pos busy]
      simp [unread, reportsError] at reported
    next => rfl
  | work id moment =>
    have noted : deeds = (observed.deeds id).worked hasher moment observed.system.database
        (observed.system.connections id) := if_pos rfl
    rw [noted] at unrefused ⊢
    exact work_reply (ok id) unrefused

/-- Prepare a text, bind it with the given result formats, and execute it, letting each
handler call work for so many steps. -/
def executes (id : ConnId) (statements : List Statement) (formats : List Protocol.Format) (steps : Nat) :
    List Input :=
  .receive id (.parse "" (textOf statements)) :: List.replicate steps (.work id .calm) ++
    [.receive id (.bind "" "" (.ok []) formats), .receive id (.execute "" 0)] ++
    List.replicate steps (.work id .calm)

/-- `CREATE TABLE t (a INT PRIMARY KEY)`, then `INSERT INTO t VALUES (7), (7)` prepared and
executed. -/
def insertsTwice : List Input :=
  send 0 [.createTable ⟨false, ⟨["t"]⟩, [⟨"a", .int4, [.primaryKey]⟩], []⟩] 20 ++
    executes 0 [.insert ⟨⟨["t"]⟩, [], List.replicate 2 [fun _ _ => .ok fun _ => .ok (.int4 7)], none⟩] [] 11

/-- The second row of an insert violates the key: its error is reported, and of the first
row, which was written, nothing is committed. -/
theorem failed_insert_commits_nothing :
    let observed := (Machine.run (Observed.step openServer fun _ => 0)
      (.start (.create .decimal (fun _ => 0) 16) fun _ => 0) insertsTwice).2
    let answer := observed.step openServer (fun _ => 0) (.work 0 .calm)
    reportsError answer.1 = true ∧ (answer.2.deeds 0).written ≠ [] ∧
      ((reportsError answer.1 = true → (answer.2.deeds 0).effects = false) ↔ Harmless observed (.work 0 .calm)) :=
  ⟨by decide +kernel, by decide +kernel,
    error_reply_commits_nothing_iff openServer (fun _ => 0) (.create .decimal (fun _ => 0) 16) (fun _ => 0)
      insertsTwice (.work 0 .calm) (by decide +kernel)⟩

/-- An insert bound with two result formats is answered with a fatal error, and another
connection reads its row. -/
theorem error_reply_to_a_committed_insert : (Machine.run (System.step openServer fun _ => 0) (freshSystem fun _ => 0)
      (send 0 [createOfInt "t"] 11 ++ executes 0 [insertInt "t" 7] [.text, .text] 20 ++
        send 1 [selectAll "t"] 20)).1.flatten =
      [.commandComplete "CREATE TABLE", .readyForQuery .idle, .parseComplete, .bindComplete,
        .errorResponse true (.malformed "2 format codes for 0 values"),
        .rowDescription [⟨"a", .int4⟩] [.text], .dataRow ⟨[.int4 7]⟩ [.text],
        .commandComplete "SELECT 1", .readyForQuery .idle] := by
  decide +kernel

end Ferrite.Server
