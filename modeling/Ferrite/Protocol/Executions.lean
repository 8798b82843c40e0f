import Ferrite.Protocol.Portals

/-!
# What an `Execute` runs, and how often

Over every sequence of messages, with any handler: an `Execute` runs the text its
portal was bound to unless the unnamed statement was parsed anew with another one, and
a portal runs at most once between two `Bind`s unless it is executed again after its
result was delivered.
-/

namespace Ferrite.Protocol

open Sql Logical Connection

variable (formats : TextFormats)

/-- A connection after some messages. -/
def after (exchanges : List Exchange) : Watched := (Machine.run (Watched.step formats) .start exchanges).2

/-! ## The statement a portal runs -/

/-- The text a portal was bound to is still the text of its statement: the statement
has a name, or the unnamed statement was last parsed with that text. -/
def TextKept (history : History) (portal : String) (bound : Bound) : Prop :=
  bound.statement = "" → ∀ text, history.reparsed portal = some text → text = bound.known.sql

/-- When `Execute` calls the handler, the parameters have the types of the statement
as the latest `Bind` found it, and the text is that statement's exactly when the text
was kept since. -/
theorem portal_runs_its_statement_iff (exchanges : List Exchange) (exchange : Exchange) {portal : String}
    {maxRows : Int} {sql : SqlText} {params : List Value}
    (called : ((after formats exchanges).step formats exchange).1.called =
      some (.execute portal maxRows sql params)) :
    ∃ bound, (after formats exchanges).history.bound portal = some bound ∧ OfTypes bound.known.paramTypes params ∧
      (sql = bound.known.sql ↔ TextKept (after formats exchanges).history portal bound) := by
  obtain ⟨found, isOpen, _, _, there, _, text, rfl⟩ := called_execute called
  rcases Watched.truthful_run formats exchanges with closed | consistent
  · have isClosed : (after formats exchanges).connection.closed = true := closed
    rw [isOpen] at isClosed
    cases isClosed
  · obtain ⟨bound, known⟩ := consistent.portals portal found there
    refine ⟨bound, known.recorded, known.params, ?_⟩
    have current : some sql = some (if bound.statement = "" then
        ((after formats exchanges).history.reparsed portal).getD bound.known.sql else bound.known.sql) := by
      rw [← text, known.statement]
      exact known.text
    rw [Option.some_inj.mp current, TextKept]
    by_cases unnamed : bound.statement = ""
    · rw [if_pos unnamed]
      cases (after formats exchanges).history.reparsed portal with
      | none => simp
      | some text => simp [unnamed]
    · simp [unnamed]

/-- A text of one statement without parameters. -/
def plainText (statement : Statement) : SqlText := ⟨false, 0, fun _ => .ok [statement]⟩

/-- A message to a handler that describes everything and runs everything to no rows. -/
def toHandler (message : Message) : Exchange :=
  ⟨message, .answered (.ok ⟨[], none⟩), .answered (.ok (.command (.other "OK")))⟩

/-- A statement prepared under a name, bound to a portal, while the unnamed one is
parsed for something else. -/
def namedExchanges : List Exchange :=
  [.parse "s" (plainText .begin) [], .bind "p" "s" [] [] [], .parse "" (plainText .rollback) []].map toHandler

theorem named_portal_runs_its_statement : ∃ bound,
    (after .decimal namedExchanges).history.bound "p" = some bound ∧ OfTypes bound.known.paramTypes [] ∧
      (plainText .begin = bound.known.sql ↔ TextKept (after .decimal namedExchanges).history "p" bound) :=
  portal_runs_its_statement_iff .decimal namedExchanges (toHandler (.execute "p" 0)) rfl

/-- The unnamed statement bound to a portal and then parsed anew. -/
def unnamedExchanges : List Exchange :=
  [.parse "" (plainText .begin) [], .bind "p" "" [] [] [], .parse "" (plainText .rollback) []].map toHandler

/-- The portal runs the text that came after its `Bind`. -/
theorem unnamed_portal_runs_another_statement :
    (after .decimal unnamedExchanges).history.bound "p" = some ⟨"", ⟨plainText .begin, []⟩⟩ ∧
      ((after .decimal unnamedExchanges).step .decimal (toHandler (.execute "p" 0))).1.called =
        some (.execute "p" 0 (plainText .rollback) []) ∧
      plainText .rollback ≠ plainText .begin := by
  refine ⟨rfl, rfl, fun same => ?_⟩
  have parsed := congrArg (fun text : SqlText => text.parse []) same
  cases parsed

/-! ## How often a portal runs -/

/-- An `Execute` that finds its portal finds it not yet run since its `Bind`, or
suspended with rows left over. -/
def Patient (portal : String) (watched : Watched) (exchange : Exchange) : Prop :=
  ∀ maxRows, exchange.message = .execute portal maxRows → watched.connection.closed = false →
    watched.connection.session.skipUntilSync = false → watched.connection.session.portals portal ≠ none →
    watched.history.calls portal = 0 ∨ watched.history.suspended portal = true

section

variable {formats} {conn : Connection} {history : History} {exchange : Exchange} {portal : String} {maxRows : Int}

variable {observation : Observation} {found : Portal}

/-- What a message other than an `Execute` of the portal does to its count. -/
theorem calls_observe_other (other : ∀ maxRows, exchange.message ≠ .execute portal maxRows) :
    (history.observe exchange observation).calls portal ≤ history.calls portal := by
  obtain ⟨message, describes, runs⟩ := exchange
  cases message with
  | execute name limit =>
    have different : portal ≠ name := fun same => other limit (by rw [same])
    simp only [History.observe]
    split
    · rfl
    · rw [History.executed]
      split <;> simp [different]
  | parse name sql declared =>
    cases describes with
    | panicked text => rfl
    | answered result =>
      cases result with
      | error failure => rfl
      | ok description =>
        simp only [History.observe]
        split <;> rfl
  | bind name statement codes params resultFormats =>
    simp only [History.observe]
    split
    · by_cases same : portal = name <;> simp [History.rebound, same]
    · rfl
  | close kind name =>
    cases kind with
    | portal => rfl
    | statement =>
      simp only [History.observe]
      split <;> rfl
  | _ => rfl

private theorem frames_raise (called : Option Request) (error : ProtocolError) :
    (conn.raise called error).1.frames ≠ [] := by
  obtain ⟨fatal, frames⟩ := conn.raise_frames called error
  rw [frames]
  exact List.cons_ne_nil _ _

/-- A run of a portal is always answered. -/
theorem frames_finishExecute (there : conn.session.portals portal = some found) (request : Request)
    (runs : Outcome QueryResult) : (conn.finishExecute request portal maxRows runs).1.frames ≠ [] := by
  cases runs with
  | panicked text => exact frames_raise _ _
  | answered result =>
    rw [finishExecute]
    split
    · rename_i answer finished
      cases result with
      | error failure => cases finished
      | ok result =>
        have lookup : (conn.session.applyTransaction result).portal portal = .ok found := by
          rw [Session.portal_eq_ok, Session.portals_applyTransaction]
          exact there
        rw [Session.finishExecute] at finished
        simp only [lookup] at finished
        split at finished
        · cases finished
        · rename_i delivered
          cases finished
          exact (Session.deliver_eq_ok _ (if_pos rfl) rfl delivered).1
    · exact frames_raise _ _

private theorem calls_observe_run (message : exchange.message = .execute portal maxRows)
    (called : observation.called.isSome = true) (answered : observation.frames ≠ []) :
    (history.observe exchange observation).calls portal = history.calls portal + 1 := by
  rw [observe_execute message answered, History.executed, called]
  simp

private theorem calls_observe_none (message : exchange.message = .execute portal maxRows)
    (uncalled : observation.called = none) :
    (history.observe exchange observation).calls portal = history.calls portal := by
  simp only [History.observe, message, uncalled]
  split <;> rfl

/-- An `Execute` that finds its portal without a result runs it once more. -/
theorem calls_execute_fresh (consistent : Consistent conn history) (isOpen : conn.closed = false)
    (reads : conn.session.skipUntilSync = false) (message : exchange.message = .execute portal maxRows)
    (there : conn.session.portals portal = some found) (fresh : found.pending = none) :
    (history.observe exchange (conn.step formats exchange).1).calls portal = history.calls portal + 1 := by
  obtain ⟨bound, known⟩ := consistent.portals portal found there
  obtain ⟨prepared, statement, _⟩ := Option.map_eq_some_iff.mp known.text
  rw [← known.statement] at statement
  rw [step_execute isOpen reads message, startExecute_fresh there fresh statement,
    proceed]
  have asked : (conn.ask exchange (.execute portal maxRows prepared.sql found.params)).1.called.isSome = true := by
    rw [called_ask]
    rfl
  exact calls_observe_run message asked (frames_finishExecute there _ exchange.runs)

/-- One with rows left over does not run it. -/
theorem calls_execute_pending (isOpen : conn.closed = false) (reads : conn.session.skipUntilSync = false)
    (message : exchange.message = .execute portal maxRows) (there : conn.session.portals portal = some found)
    (pending : found.pending.isSome = true) :
    (history.observe exchange (conn.step formats exchange).1).calls portal = history.calls portal := by
  rw [step_execute isOpen reads message, startExecute_pending there pending]
  cases conn.session.deliver portal maxRows with
  | ok answer => exact calls_observe_none message rfl
  | error error => exact calls_observe_none message (called_raise none error)

/-- Nothing runs where the message is not read or the portal is not there. -/
theorem calls_execute_unfound (message : exchange.message = .execute portal maxRows)
    (unfound : conn.closed = true ∨ conn.session.skipUntilSync = true ∨ conn.session.portals portal = none) :
    (history.observe exchange (conn.step formats exchange).1).calls portal = history.calls portal := by
  refine calls_observe_none message ?_
  cases isOpen : conn.closed with
  | true =>
    rw [step, isOpen]
    rfl
  | false =>
    cases reads : conn.session.skipUntilSync with
    | true =>
      have discarded : conn.session.dispatch (.execute portal maxRows) = .replied [] conn.session :=
        dispatch_skipping reads (by simp) (by simp)
      rw [step_open isOpen, message, frontend, discarded]
      rfl
    | false =>
      have absent : conn.session.portals portal = none := by simpa [isOpen, reads] using unfound
      obtain ⟨error, missing⟩ := startExecute_missing absent
      rw [step_execute isOpen reads message, missing]
      exact called_raise none error

end

/-- A patient message, and no other, keeps the count of runs at one at most. -/
theorem patient_iff (portal : String) (watched : Watched) (exchange : Exchange) (truthful : watched.Truthful)
    (once : watched.history.calls portal ≤ 1) :
    Patient portal watched exchange ↔ (watched.step formats exchange).2.history.calls portal ≤ 1 := by
  obtain ⟨conn, history⟩ := watched
  by_cases executes : ∃ maxRows, exchange.message = .execute portal maxRows
  · obtain ⟨maxRows, message⟩ := executes
    by_cases unfound : conn.closed = true ∨ conn.session.skipUntilSync = true ∨ conn.session.portals portal = none
    · have unchanged : (history.observe exchange (conn.step formats exchange).1).calls portal = _ :=
        calls_execute_unfound message unfound
      refine iff_of_true ?_ (unchanged.trans_le once)
      intro _ _ (isOpen : conn.closed = false) (reads : conn.session.skipUntilSync = false) there
      rcases unfound with closed | skipping | absent
      · rw [closed] at isOpen
        cases isOpen
      · rw [skipping] at reads
        cases reads
      · exact absurd absent there
    · simp only [not_or, Bool.not_eq_true] at unfound
      obtain ⟨isOpen, reads, there⟩ := unfound
      obtain ⟨found, there⟩ := Option.ne_none_iff_exists'.mp there
      have consistent : Consistent conn history := truthful.resolve_left (by simp [isOpen])
      obtain ⟨bound, known⟩ := consistent.portals portal found there
      have patient : Patient portal ⟨conn, history⟩ exchange ↔
          history.calls portal = 0 ∨ history.suspended portal = true := by
        refine ⟨fun patient => patient maxRows message isOpen reads (by simp [there]), fun fine _ _ _ _ _ => fine⟩
      rw [patient]
      cases pending : found.pending with
      | none =>
        have ran : (history.observe exchange (conn.step formats exchange).1).calls portal = _ :=
          calls_execute_fresh consistent isOpen reads message there pending
        have done : history.suspended portal = false := by rw [← known.pending, pending]; rfl
        rw [done]
        change _ ↔ (history.observe exchange (conn.step formats exchange).1).calls portal ≤ 1
        rw [ran]
        simp
      | some left =>
        have held : found.pending.isSome = true := by rw [pending]; rfl
        have unchanged : (history.observe exchange (conn.step formats exchange).1).calls portal = _ :=
          calls_execute_pending isOpen reads message there held
        refine iff_of_true (Or.inr ?_) (unchanged.trans_le once)
        rw [← known.pending, held]
  · have other : ∀ maxRows, exchange.message ≠ .execute portal maxRows := fun maxRows is => executes ⟨maxRows, is⟩
    refine iff_of_true (fun maxRows is => absurd is (other maxRows)) ?_
    exact (calls_observe_other other).trans once

/-- Between two `Bind`s of a portal the handler runs it at most once, at every point of
a run, exactly when every `Execute` of the run is patient. -/
theorem portal_runs_at_most_once_iff (portal : String) (exchanges : List Exchange) :
    (∀ count, (after formats (exchanges.take count)).history.calls portal ≤ 1) ↔
      Machine.Meets (Watched.step formats) (Patient portal) .start exchanges :=
  (Machine.meets_iff_forall_take (Watched.truthful_step formats)
    (fun watched exchange truthful once => patient_iff formats portal watched exchange truthful once)
    (Or.inr Consistent.start) (Nat.zero_le 1)).symm

/-- A portal executed twice after one `Bind`. -/
def twiceExchanges : List Exchange :=
  [.parse "s" (plainText .begin) [], .bind "p" "s" [] [] [], .execute "p" 0, .execute "p" 0].map toHandler

theorem portal_executed_twice_runs_twice :
    (after .decimal twiceExchanges).history.calls "p" = 2 := by
  decide

end Ferrite.Protocol
