import Ferrite.Protocol.Replies
import Ferrite.Server.System

/-!
# What a step of a connection does

Every step is one of a few: a message is left unread, answered at once, or starts a
handler call; a handler call takes one step, ends a statement and goes on with the
next of its text, or ends the text. A program under contract stays under it as the
connection works, if the answers it gets are those its contract expects.
-/

namespace Ferrite.Server

open Logical Catalog Sql Connection
open Protocol (Backend Frontend ProtocolError QueryResult SqlText FieldDescription Reports
  TransactionStatus statusAfter)
open Storage (Hasher)

universe u

/-! ## Programs -/

/-- The program has a step to take. -/
def Running {α : Type} : Action α → Prop
  | .done _ => False
  | .fail _ => False
  | _ => True

private theorem running_of {α : Type} {prog : Action α} (unfinished : ∀ result, prog = .done result → False)
    (unfailed : ∀ error, prog = .fail error → False) : Running prog := by
  cases prog with
  | done result => exact unfinished result rfl
  | fail error => exact unfailed error rfl
  | _ => trivial

section

variable {α : Type} {γ : Type u} (contract : Contract Call SessionState γ) (hasher : Hasher)
  (moment : Moment) (db : Database)

/-- What the next step of a program tells it is what the contract expects. -/
def Answered (known : γ) (state : SessionState) (prog : Action α) (known' : γ) : Prop :=
  match prog with
  | .call op _ => contract.moves known state op (db.answer hasher moment op).1 known'
  | _ => known' = known

variable {contract hasher moment db}

/-- A program under contract stays under it. -/
theorem keeps_advance {post : γ → SessionState → Except FerriteError α → Prop} {known known' : γ}
    {state : SessionState} {prog : Action α} (keeps : prog.Keeps contract post known state)
    (answered : Answered contract hasher moment db known state prog known') :
    (advance hasher moment db state prog).1.Keeps contract post known'
      (advance hasher moment db state prog).2.1 := by
  cases prog with
  | call op next => exact keeps.2 _ _ answered
  | done result => exact answered ▸ keeps
  | fail error => exact answered ▸ keeps
  | hang => trivial
  | read next => exact answered ▸ keeps
  | write state next => exact answered ▸ keeps.2

end

/-! ## Handler calls -/

section

variable (inner : Inner) (hasher : Hasher) (moment : Moment) (conn : Connection) (db : Database)

/-- The ways a connection's job can go on. -/
inductive Works : List Backend × Connection → Database → Prop
  | idle (job : conn.job = none) : Works ([], conn) db
  | finished {task : Task} {statement : Statement} {rest : List Statement} {result : QueryResult}
      (job : conn.job = some (.statement task statement rest (.done result))) :
      Works (conn.runText inner task result rest) db
  | failed {task : Task} {statement : Statement} {rest : List Statement} {error : FerriteError}
      (job : conn.job = some (.statement task statement rest (.fail error))) :
      Works (conn.finishText inner task (.error error)) db
  | executing {task : Task} {statement : Statement} {rest : List Statement} {prog : Action QueryResult}
      (job : conn.job = some (.statement task statement rest prog)) (running : Running prog) :
      Works ([], { conn with
        state := (advance hasher moment db conn.state prog).2.1
        job := some (.statement task statement rest (advance hasher moment db conn.state prog).1) })
        (advance hasher moment db conn.state prog).2.2
  | described {name : String} {sql : SqlText} {fields : Option (List FieldDescription)}
      (job : conn.job = some (.describe name sql (.done fields))) :
      Works (conn.finishDescribe inner name sql fields) db
  | undescribed {name : String} {sql : SqlText} {error : FerriteError}
      (job : conn.job = some (.describe name sql (.fail error))) :
      Works (conn.raise inner (.ferrite error)) db
  | describing {name : String} {sql : SqlText} {prog : Action (Option (List FieldDescription))}
      (job : conn.job = some (.describe name sql prog)) (running : Running prog) :
      Works ([], { conn with
        state := (advance hasher moment db conn.state prog).2.1
        job := some (.describe name sql (advance hasher moment db conn.state prog).1) })
        (advance hasher moment db conn.state prog).2.2
  | dropped {prog : Action Unit} (job : conn.job = some (.drop prog)) (ended : ¬ Running prog) :
      Works ([], { conn with job := none }) db
  | dropping {prog : Action Unit} (job : conn.job = some (.drop prog)) (running : Running prog) :
      Works ([], { conn with
        state := (advance hasher moment db conn.state prog).2.1
        job := some (.drop (advance hasher moment db conn.state prog).1) })
        (advance hasher moment db conn.state prog).2.2

/-- Every step of work is one of the cases. -/
theorem works : Works inner hasher moment conn db (conn.work inner hasher moment db).1
      (conn.work inner hasher moment db).2 := by
  rw [work]
  split
  next job => exact .idle job
  next job => exact .finished job
  next job => exact .failed job
  next prog ended unfailed job => exact .executing job (running_of ended unfailed)
  next job => exact .described job
  next job => exact .undescribed job
  next prog ended unfailed job => exact .describing job (running_of ended unfailed)
  next job => exact .dropped job id
  next job => exact .dropped job id
  next prog ended unfailed job => exact .dropping job (running_of ended unfailed)

end

/-! ## Messages -/

section

variable (inner : Inner) (conn : Connection)

/-- The ways a message can be taken. -/
inductive Receives (message : Frontend) : List Backend × Connection → Prop
  | unread (busy : (conn.closed || conn.job.isSome) = true) : Receives message ([], conn)
  | replied {frames : List Backend} {session : Protocol.Session} (unclosed : conn.closed = false)
      (idle : conn.job = none) (dispatched : conn.protocol.dispatch message = .replied frames session) :
      Receives message (frames, { conn with protocol := session })
  | raised {error : ProtocolError} (unclosed : conn.closed = false) (idle : conn.job = none)
      (dispatched : conn.protocol.dispatch message = .raised error) :
      Receives message (conn.raise inner error)
  | closes (unclosed : conn.closed = false) (idle : conn.job = none) :
      Receives message ([], conn.shut inner)
  | text {task : Task} {parsed : Except FerriteError (List Statement)} (unclosed : conn.closed = false)
      (idle : conn.job = none) (asked : conn.asksText message = some (task, parsed)) :
      Receives message (conn.startText inner task parsed)
  | describes {name : String} {sql : SqlText} (unclosed : conn.closed = false) (idle : conn.job = none) :
      Receives message ([], { conn with job := some (.describe name sql (Inner.describeStatement sql)) })

/-- Every message received is one of the cases. -/
theorem receives (message : Frontend) : Receives inner conn message (conn.receive inner message) := by
  rw [receive]
  split
  next busy => exact .unread busy
  next free =>
    obtain ⟨unclosed, idle⟩ : conn.closed = false ∧ conn.job = none := by simpa using free
    split
    next dispatched => exact .replied unclosed idle dispatched
    next dispatched => exact .raised unclosed idle dispatched
    next => exact .closes unclosed idle
    next sql dispatched => exact .text unclosed idle (by rw [asksText, dispatched])
    next portal maxRows sql params dispatched => exact .text unclosed idle (by rw [asksText, dispatched])
    next => exact .describes unclosed idle

end

/-! ## The end of a text -/

section

variable {inner : Inner} {conn : Connection}

/-- How a handler call ends: the engine session is as it was, and the connection reads
on or is closed. -/
structure Ends (inner : Inner) (conn : Connection) (answer : List Backend × Connection) : Prop where
  reports : Reports answer.1 answer.2.protocol.transaction
  caller : answer.2.caller = conn.caller
  state : answer.2.state = conn.state
  job : answer.2.job = none ∧ answer.2.closed = conn.closed ∨
    answer.2.job = some (.drop inner.drop) ∧ answer.2.closed = true

/-- An error ends the job and keeps whether a transaction is reported. -/
theorem raise_ends (error : ProtocolError) : Ends inner conn (conn.raise inner error) ∧
      ((conn.raise inner error).2.protocol.transaction = .idle ↔ conn.protocol.transaction = .idle) := by
  rw [raise]
  split
  · refine ⟨⟨fun sent member => ?_, rfl, rfl, .inl ⟨rfl, rfl⟩⟩, conn.protocol.reportError_idle error⟩
    simp [Protocol.Session.reportError] at member
  · exact ⟨⟨fun sent member => by simp at member, rfl, rfl, .inr ⟨rfl, rfl⟩⟩, Iff.rfl⟩

/-- A text that ran to its end leaves the status its last statement reports. -/
theorem finishText_ok (task : Task) (result : QueryResult) : Ends inner conn (conn.finishText inner task (.ok result)) ∧
      ((conn.finishText inner task (.ok result)).2.protocol.transaction = .idle ↔
        statusAfter conn.protocol result = .idle) := by
  cases task with
  | query =>
    refine ⟨⟨conn.protocol.finishQuery_reports _, rfl, rfl, .inl ⟨rfl, rfl⟩⟩, ?_⟩
    simp [finishText, Protocol.Session.finishQuery]
  | execute portal maxRows =>
    rw [finishText]
    split
    next answer finished =>
      obtain ⟨status, silent⟩ := conn.protocol.finishExecute_ok finished
      exact ⟨⟨silent _, rfl, rfl, .inl ⟨rfl, rfl⟩⟩, by rw [status]⟩
    next raised finished =>
      obtain ⟨ends, status⟩ := @raise_ends inner { conn with protocol := raised.2 } raised.1
      exact ⟨⟨ends.reports, ends.caller, ends.state, ends.job⟩,
        by rw [status, conn.protocol.finishExecute_raised finished]⟩

/-- An error does not change whether the client is told of a transaction. -/
theorem finishText_error (task : Task) (error : FerriteError) :
    Ends inner conn (conn.finishText inner task (.error error)) ∧
      ((conn.finishText inner task (.error error)).2.protocol.transaction = .idle ↔
        conn.protocol.transaction = .idle) := by
  cases task with
  | query =>
    exact ⟨⟨conn.protocol.finishQuery_reports _, rfl, rfl, .inl ⟨rfl, rfl⟩⟩, conn.protocol.failTransaction_idle⟩
  | execute portal maxRows =>
    obtain ⟨ends, status⟩ :=
      @raise_ends inner { conn with protocol := conn.protocol.failTransaction } (.ferrite error)
    exact ⟨⟨ends.reports, ends.caller, ends.state, ends.job⟩, status.trans conn.protocol.failTransaction_idle⟩

theorem finishDescribe_ends (name : String) (sql : SqlText) (fields : Option (List FieldDescription)) :
    Ends inner conn (conn.finishDescribe inner name sql fields) ∧
      ((conn.finishDescribe inner name sql fields).2.protocol.transaction = .idle ↔
        conn.protocol.transaction = .idle) := by
  rw [finishDescribe]
  split
  next answer finished =>
    rw [Protocol.Session.finishParse] at finished
    split at finished
    · cases finished
    · cases finished
      exact ⟨⟨fun sent member => by simp at member, rfl, rfl, .inl ⟨rfl, rfl⟩⟩, Iff.rfl⟩
  next error finished => exact raise_ends error

end
end Ferrite.Server
