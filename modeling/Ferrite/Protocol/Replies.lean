import Ferrite.Logical.Fallible
import Ferrite.Protocol.Session

/-!
# What a reply says about the transaction

A `ReadyForQuery` carries the status the protocol session holds when it is sent, and
only the answer of the handler moves that status between idle and not idle.
-/

namespace Ferrite.Protocol

open Logical

/-- Every `ReadyForQuery` among the frames carries the given status. -/
def Reports (frames : List Backend) (status : TransactionStatus) : Prop :=
  ∀ sent, Backend.readyForQuery sent ∈ frames → sent = status

private theorem reports_nil (status : TransactionStatus) : Reports [] status := by
  intro sent member
  simp at member

/-- The status a successful text leaves. -/
def statusAfter (session : Session) (result : QueryResult) : TransactionStatus :=
  result.transaction.getD session.transaction

namespace Session

variable (session : Session)

variable {name : String} {maxRows : Int} {frames : List Backend}

@[simp] theorem setPortal_transaction (name : String) (portal : Portal) :
    (session.setPortal name portal).transaction = session.transaction := rfl

@[simp] theorem applyTransaction_transaction (result : QueryResult) :
    (session.applyTransaction result).transaction = statusAfter session result := by
  rw [applyTransaction, statusAfter]
  cases result.transaction <;> rfl

@[simp] theorem learnFields_transaction (name : String) (fields : List FieldDescription) :
    (session.learnFields name fields).transaction = session.transaction := by
  rw [learnFields]
  split
  · split <;> rfl
  · rfl

/-- A failure does not tell whether a transaction is open. -/
theorem failTransaction_idle : session.failTransaction.transaction = .idle ↔ session.transaction = .idle := by
  rw [failTransaction]
  split
  · rename_i open_
    simp [open_]
  · rfl

theorem reportError_idle (error : ProtocolError) :
    (session.reportError error).2.transaction = .idle ↔ session.transaction = .idle :=
  failTransaction_idle { session with skipUntilSync := true }

private theorem queryFrames_reports (result : QueryResult) (status : TransactionStatus) :
    Reports (queryFrames result) status := by
  intro sent member
  rw [queryFrames] at member
  split at member
  · simp at member
  · split at member <;> simp at member

theorem finishQuery_reports (answer : Except FerriteError QueryResult) :
    Reports (session.finishQuery answer).1 (session.finishQuery answer).2.transaction := by
  intro sent member
  cases answer with
  | error e => simpa [finishQuery] using member
  | ok result =>
    simp only [finishQuery, List.mem_append, List.mem_singleton, Backend.readyForQuery.injEq] at member
    rcases member with inside | last
    · exact queryFrames_reports result _ sent inside
    · exact last

/-- Delivering rows says nothing about the transaction and does not change it. -/
theorem deliver_silent {answer : List Backend × Session} (delivered : session.deliver name maxRows = .ok answer) :
    answer.2.transaction = session.transaction ∧ ∀ status, Reports answer.1 status := by
  rw [deliver, bind_eq_ok] at delivered
  obtain ⟨portal, -, delivered⟩ := delivered
  split at delivered
  · cases delivered
    exact ⟨rfl, reports_nil⟩
  split at delivered
  · cases delivered
    exact ⟨rfl, fun status sent member => by simp at member⟩
  · rw [bind_eq_ok] at delivered
    obtain ⟨formats, -, delivered⟩ := delivered
    simp only at delivered
    split at delivered <;> cases delivered <;>
      exact ⟨rfl, fun status sent member => by simp [-List.map_take] at member⟩

theorem finishExecute_ok {result : QueryResult} {answer : List Backend × Session}
    (finished : session.finishExecute name maxRows (.ok result) = .ok answer) :
    answer.2.transaction = statusAfter session result ∧ ∀ status, Reports answer.1 status := by
  simp only [finishExecute] at finished
  split at finished
  · cases finished
  split at finished
  · cases finished
  · rename_i delivered
    cases finished
    obtain ⟨same, silent⟩ := deliver_silent _ delivered
    exact ⟨by rw [same]; simp, silent⟩

theorem finishExecute_raised {result : QueryResult} {raised : ProtocolError × Session}
    (finished : session.finishExecute name maxRows (.ok result) = .error raised) :
    raised.2.transaction = statusAfter session result := by
  simp only [finishExecute] at finished
  split at finished
  · cases finished
    simp
  split at finished
  · cases finished
    simp
  · cases finished

private theorem describe_silent {kind : TargetKind} (described : session.describe kind name = .ok frames)
    (status : TransactionStatus) : Reports frames status := by
  cases kind
  · obtain ⟨prepared, -, described⟩ := bind_eq_ok.mp described
    cases described
    intro sent member
    simp only [List.mem_cons, List.not_mem_nil, or_false, reduceCtorEq, false_or] at member
    split at member <;> cases member
  · obtain ⟨portal, -, described⟩ := bind_eq_ok.mp described
    obtain ⟨prepared, -, described⟩ := bind_eq_ok.mp described
    split at described
    · obtain ⟨formats, -, described⟩ := bind_eq_ok.mp described
      cases described
      intro sent member
      simp at member
    · cases described
      intro sent member
      simp at member

private theorem raise_replied {result : Except ProtocolError Dispatched} {next : Session}
    (replied : raise result = .replied frames next) : result = .ok (.replied frames next) := by
  cases result with
  | ok dispatched => exact congrArg _ replied
  | error e => cases replied

/-- A reply without the handler leaves the status alone and reports it as it is. -/
theorem dispatch_replied {message : Frontend} {next : Session}
    (replied : session.dispatch message = .replied frames next) :
    next.transaction = session.transaction ∧ Reports frames session.transaction := by
  unfold dispatch at replied
  split at replied
  · cases replied
  · cases replied
    exact ⟨rfl, fun sent member => by simpa using member⟩
  split at replied
  · cases replied
    exact ⟨rfl, reports_nil _⟩
  split at replied
  · split at replied
    · cases replied
      exact ⟨rfl, finishQuery_reports session (.ok .empty)⟩
    · cases replied
  · cases replied
  · obtain ⟨bound, bind, answered⟩ := bind_eq_ok.mp (raise_replied replied)
    obtain ⟨prepared, -, bind⟩ := bind_eq_ok.mp bind
    obtain ⟨params, -, bind⟩ := bind_eq_ok.mp bind
    cases bind
    cases answered
    exact ⟨rfl, fun sent member => by simp at member⟩
  · obtain ⟨described, describe, answered⟩ := bind_eq_ok.mp (raise_replied replied)
    cases answered
    exact ⟨rfl, describe_silent session describe _⟩
  · obtain ⟨portal, -, answered⟩ := bind_eq_ok.mp (raise_replied replied)
    split at answered
    · obtain ⟨answer, delivered, answered⟩ := bind_eq_ok.mp answered
      cases answered
      exact ⟨(deliver_silent session delivered).1, (deliver_silent session delivered).2 _⟩
    · obtain ⟨prepared, -, answered⟩ := bind_eq_ok.mp answered
      cases answered
  · cases replied
    refine ⟨?_, fun sent member => by simp at member⟩
    unfold close
    split <;> rfl
  · cases replied
  · cases replied
  · cases replied
    exact ⟨rfl, reports_nil _⟩

end Session
end Ferrite.Protocol
