import Ferrite.Protocol.Connection

/-!
# Portals and their statements

A portal holds the name of its statement, not the statement. Closing a statement
closes its portals, and a named statement is not replaced, so the name goes on meaning
what it meant at `Bind`, except for the unnamed statement, which every `Parse`
replaces. A portal's result is kept only as long as rows are left over; once it is
delivered the next `Execute` runs the statement again.
-/

namespace Ferrite.Protocol

open Sql Logical Session History

namespace Session

variable (session : Session)

/-- The texts of the prepared statements. -/
def texts (name : String) : Option SqlText := (session.statements name).map Prepared.sql

variable {name : String} {portal : Portal} {error : ProtocolError} {maxRows : Int}

@[simp] theorem texts_applyTransaction (result : QueryResult) :
    (session.applyTransaction result).texts = session.texts := by
  rw [applyTransaction]
  split <;> rfl

@[simp] theorem texts_failTransaction : session.failTransaction.texts = session.texts := by
  rw [failTransaction]
  split <;> rfl

@[simp] theorem portals_failTransaction : session.failTransaction.portals = session.portals := by
  rw [failTransaction]
  split <;> rfl

@[simp] theorem texts_reportError (error : ProtocolError) : (session.reportError error).2.texts = session.texts :=
  texts_failTransaction { session with skipUntilSync := true }

@[simp] theorem portals_reportError (error : ProtocolError) :
    (session.reportError error).2.portals = session.portals :=
  portals_failTransaction { session with skipUntilSync := true }

@[simp] theorem texts_setPortal (name : String) (portal : Portal) :
    (session.setPortal name portal).texts = session.texts := rfl

@[simp] theorem portals_learnFields (name : String) (fields : List FieldDescription) :
    (session.learnFields name fields).portals = session.portals := by
  rw [learnFields]
  split
  · split <;> rfl
  · rfl

/-- The fields a statement is learnt to have do not change its text. -/
@[simp] theorem texts_learnFields (name : String) (fields : List FieldDescription) :
    (session.learnFields name fields).texts = session.texts := by
  rw [learnFields]
  split
  · rename_i prepared found
    split
    · rfl
    · funext other
      by_cases same : other = name
      · simp [texts, same, found]
      · simp [texts, same]
  · rfl

@[simp] theorem texts_finishQuery (answer : Except FerriteError QueryResult) :
    (session.finishQuery answer).2.texts = session.texts := by
  cases answer <;> simp [finishQuery]

@[simp] theorem portals_finishQuery (answer : Except FerriteError QueryResult) :
    (session.finishQuery answer).2.portals = session.portals := by
  cases answer <;> simp [finishQuery]

theorem portal_eq_ok : session.portal name = .ok portal ↔ session.portals name = some portal := by
  rw [Session.portal]
  split <;> simp_all

private theorem statement_eq_ok {prepared : Prepared} :
    session.statement name = .ok prepared ↔ session.statements name = some prepared := by
  rw [Session.statement]
  split <;> simp_all

private theorem error_resolveFormats {codes : List Format} {count : Nat}
    (refused : resolveFormats codes count = .error error) :
    error.isRecoverable = false := by
  rw [resolveFormats.eq_def] at refused
  split at refused
  · cases refused
  · cases refused
  · split at refused
    · cases refused
    · cases refused
      rfl

/-- Delivering a result answers with something, and keeps the result when it suspends
the portal. -/
theorem deliver_eq_ok {answer : List Backend × Session} (there : session.portals name = some portal)
    (pending : portal.pending.isSome = true) (delivered : session.deliver name maxRows = .ok answer) :
    answer.1 ≠ [] ∧ ∃ left, answer.2 = session.setPortal name { portal with pending := left } ∧
      (left.isSome = true ↔ .portalSuspended ∈ answer.1) := by
  obtain ⟨found, lookup, delivered⟩ := bind_eq_ok.mp delivered
  rw [portal_eq_ok, there, Option.some_inj] at lookup
  subst lookup
  split at delivered
  · rename_i empty
    rw [empty] at pending
    cases pending
  split at delivered
  · cases delivered
    exact ⟨List.cons_ne_nil _ _, none, rfl, by simp⟩
  · obtain ⟨codes, _, delivered⟩ := bind_eq_ok.mp delivered
    dsimp only at delivered
    split at delivered
    · cases delivered
      exact ⟨by simp, none, rfl, by simp [-List.map_take]⟩
    · cases delivered
      exact ⟨by simp, some _, rfl, by simp⟩

private theorem deliver_error (there : session.portals name = some portal)
    (refused : session.deliver name maxRows = .error error) : error.isRecoverable = false := by
  have lookup := session.portal_eq_ok.mpr there
  rw [deliver, lookup, ok_bind] at refused
  split at refused
  · cases refused
  · split at refused
    · cases refused
    · cases codes : resolveFormats portal.resultFormats _ with
      | error raised =>
        rw [codes] at refused
        cases refused
        exact error_resolveFormats codes
      | ok formats =>
        rw [codes, ok_bind] at refused
        dsimp only at refused
        split at refused <;> cases refused

end Session

/-! ## What the observer knows -/

/-- A portal is as its `Bind` left it, as far as the observer can tell. -/
structure PortalKnown (conn : Connection) (history : History) (name : String) (portal : Portal) (bound : Bound) :
    Prop where
  recorded : history.bound name = some bound
  statement : portal.statement = bound.statement
  params : OfTypes bound.known.paramTypes portal.params
  text : conn.session.texts bound.statement =
    some (if bound.statement = "" then (history.reparsed name).getD bound.known.sql else bound.known.sql)
  pending : portal.pending.isSome = history.suspended name
  ran : history.suspended name = true → 1 ≤ history.calls name

/-- The history tells the truth about an open connection. -/
structure Consistent (conn : Connection) (history : History) : Prop where
  prepared : ∀ name, history.prepared name = (conn.session.texts name).map fun sql => ⟨sql, conn.paramTypes name⟩
  portals : ∀ name portal, conn.session.portals name = some portal →
    ∃ bound, PortalKnown conn history name portal bound

namespace Consistent

variable {conn next : Connection} {history : History}

theorem start : Consistent .new .start := ⟨fun _ => rfl, fun _ _ => nofun⟩

/-- Only the statements' texts and types and the portals matter. -/
theorem same (consistent : Consistent conn history) (texts : next.session.texts = conn.session.texts)
    (types : next.paramTypes = conn.paramTypes) (portals : next.session.portals = conn.session.portals) :
    Consistent next history := by
  refine ⟨fun name => ?_, fun name portal there => ?_⟩
  · rw [texts, types]
    exact consistent.prepared name
  · rw [portals] at there
    obtain ⟨bound, known⟩ := consistent.portals name portal there
    exact ⟨bound, { known with text := by rw [texts]; exact known.text }⟩

/-- A completed `Parse`: a name taken again is the unnamed one. -/
theorem parsed (consistent : Consistent conn history) {name : String} {sql : SqlText} {types : List DataType}
    (texts : next.session.texts = Function.update conn.session.texts name (some sql))
    (types_eq : next.paramTypes = Function.update conn.paramTypes name types)
    (portals : next.session.portals = conn.session.portals) (free : name = "" ∨ conn.session.texts name = none) :
    Consistent next (history.parsed name ⟨sql, types⟩) := by
  refine ⟨fun other => ?_, fun other portal there => ?_⟩
  · rw [texts, types_eq, History.parsed]
    by_cases same : other = name
    · simp [same]
    · simp [same, consistent.prepared other]
  · rw [portals] at there
    obtain ⟨bound, known⟩ := consistent.portals other portal there
    refine ⟨bound, { known with text := ?_ }⟩
    rw [texts, History.parsed]
    by_cases same : bound.statement = name
    · rcases free with unnamed | absent
      · simp [same, unnamed]
      · rw [← same, known.text] at absent
        cases absent
    · by_cases unnamed : name = ""
      · simp [same, known.text, unnamed ▸ same]
      · simp [same, known.text, unnamed]

private theorem rebound (consistent : Consistent conn history) {name statement : String} {params : List Value}
    {codes : List Format} {sql : SqlText} (there : conn.session.texts statement = some sql)
    (typed : OfTypes (conn.paramTypes statement) params) :
    Consistent { conn with session := conn.session.setPortal name ⟨statement, params, codes, none⟩ }
      (history.rebound name statement) := by
  refine ⟨consistent.prepared, fun other portal found => ?_⟩
  by_cases same : other = name
  · subst same
    simp only [setPortal, if_true, Option.some_inj] at found
    subst found
    refine ⟨⟨statement, ⟨sql, conn.paramTypes statement⟩⟩, ?_, rfl, typed, ?_, ?_, ?_⟩
    · simp [History.rebound, consistent.prepared, there]
    · simp [History.rebound, there]
    · simp [History.rebound]
    · simp [History.rebound]
  · simp only [setPortal, same, if_false] at found
    obtain ⟨bound, known⟩ := consistent.portals other portal found
    refine ⟨bound, ?_, known.statement, known.params, ?_, ?_, ?_⟩
    · simpa [History.rebound, same] using known.recorded
    · simpa [History.rebound, same] using known.text
    · simpa [History.rebound, same] using known.pending
    · simpa [History.rebound, same] using known.ran

/-- An `Execute` answered with rows or the end of them. -/
theorem executed (consistent : Consistent conn history) {name : String} {portal : Portal} {left : Option Pending}
    {ran : Bool} (there : conn.session.portals name = some portal)
    (texts : next.session.texts = conn.session.texts) (types : next.paramTypes = conn.paramTypes)
    (portals : next.session.portals = fun other => if other = name then some { portal with pending := left }
      else conn.session.portals other)
    (called : ran = true ∨ 1 ≤ history.calls name) : Consistent next (history.executed name ran left.isSome) := by
  refine ⟨fun other => ?_, fun other found inNext => ?_⟩
  · rw [texts, types]
    exact consistent.prepared other
  · rw [portals] at inNext
    by_cases same : other = name
    · subst same
      simp only [if_true, Option.some_inj] at inNext
      subst inNext
      obtain ⟨bound, known⟩ := consistent.portals other portal there
      refine ⟨bound, known.recorded, known.statement, known.params, by rw [texts]; exact known.text, ?_, ?_⟩
      · simp [History.executed]
      · intro _
        rcases called with rfl | called
        · simp [History.executed]
        · cases ran <;> simp [History.executed, called]
    · simp only [same, if_false] at inNext
      obtain ⟨bound, known⟩ := consistent.portals other found inNext
      refine ⟨bound, known.recorded, known.statement, known.params, by rw [texts]; exact known.text, ?_, ?_⟩
      · simpa [History.executed, same] using known.pending
      · cases ran <;> simpa [History.executed, same] using known.ran

/-- A failed `Execute` leaves a portal without a result as it was. -/
theorem failed (consistent : Consistent conn history) {name : String} {ran : Bool}
    (none : ∀ portal, conn.session.portals name = some portal → portal.pending = none)
    (texts : next.session.texts = conn.session.texts) (types : next.paramTypes = conn.paramTypes)
    (portals : next.session.portals = conn.session.portals) : Consistent next (history.executed name ran false) := by
  refine ⟨fun other => ?_, fun other found inNext => ?_⟩
  · rw [texts, types]
    exact consistent.prepared other
  · rw [portals] at inNext
    obtain ⟨bound, known⟩ := consistent.portals other found inNext
    refine ⟨bound, known.recorded, known.statement, known.params, by rw [texts]; exact known.text, ?_, ?_⟩
    · by_cases same : other = name
      · subst same
        simp [History.executed, none found inNext]
      · simpa [History.executed, same] using known.pending
    · by_cases same : other = name
      · subst same
        simp [History.executed]
      · cases ran <;> simpa [History.executed, same] using known.ran

private theorem closedStatement (consistent : Consistent conn history) (name : String) :
    Consistent { conn with session := conn.session.close .statement name } (history.forgotten name) := by
  have texts : ∀ other, (conn.session.close .statement name).texts other =
      if other = name then none else conn.session.texts other := by
    intro other
    by_cases same : other = name <;> simp [Session.texts, close, same]
  refine ⟨fun other => ?_, fun other portal found => ?_⟩
  · rw [texts, forgotten]
    by_cases same : other = name
    · simp [same]
    · simp [same, consistent.prepared other]
  · obtain ⟨there, kept⟩ := Option.filter_eq_some_iff.mp found
    obtain ⟨bound, known⟩ := consistent.portals other portal there
    have otherName : bound.statement ≠ name := by
      rw [← known.statement]
      simpa using kept
    refine ⟨bound, { known with text := ?_ }⟩
    rw [texts, if_neg otherName]
    exact known.text

private theorem closedPortal (consistent : Consistent conn history) (name : String) :
    Consistent { conn with session := conn.session.close .portal name } history := by
  refine ⟨consistent.prepared, fun other portal found => ?_⟩
  by_cases same : other = name
  · simp [close, same] at found
  · simp only [close, same, if_false] at found
    obtain ⟨bound, known⟩ := consistent.portals other portal found
    exact ⟨bound, { known with }⟩

end Consistent

/-! ## One step -/

namespace Connection

variable {formats : TextFormats} {conn : Connection} {history : History} {exchange : Exchange}

variable {name portal : String} {sql : SqlText} {maxRows : Int} {params : List Value}

theorem raise_frames (called : Option Request) (error : ProtocolError) :
    ∃ fatal, (conn.raise called error).1 = ⟨called, [.errorResponse fatal error]⟩ := by
  rw [raise]
  split
  · exact ⟨false, rfl⟩
  · exact ⟨true, rfl⟩

theorem raise_same (called : Option Request) (error : ProtocolError) :
    (conn.raise called error).2.session.texts = conn.session.texts ∧
      (conn.raise called error).2.paramTypes = conn.paramTypes ∧
      (conn.raise called error).2.session.portals = conn.session.portals := by
  rw [raise]
  split
  · exact ⟨texts_reportError _ error, rfl, portals_reportError _ error⟩
  · exact ⟨rfl, rfl, rfl⟩

/-- An error is no news about statements and portals, except for an `Execute`. -/
theorem observe_raise (notExecute : ∀ portal maxRows, exchange.message ≠ .execute portal maxRows)
    (called : Option Request) (error : ProtocolError) :
    history.observe exchange (conn.raise called error).1 = history := by
  obtain ⟨fatal, frames⟩ := conn.raise_frames called error
  obtain ⟨message, describes, runs⟩ := exchange
  rw [frames]
  cases message with
  | execute portal maxRows => exact absurd rfl (notExecute portal maxRows)
  | parse name sql declared =>
    cases describes with
    | panicked text => rfl
    | answered result => cases result <;> simp [observe]
  | close kind name => cases kind <;> simp [observe]
  | _ => simp [observe]

private theorem consistent_raised (consistent : Consistent conn history) (called : Option Request)
    (error : ProtocolError) :
    Consistent (conn.raise called error).2 history := by
  obtain ⟨texts, types, portals⟩ := conn.raise_same called error
  exact consistent.same texts types portals

private theorem consistent_raise (consistent : Consistent conn history)
    (notExecute : ∀ portal maxRows, exchange.message ≠ .execute portal maxRows) (called : Option Request)
    (error : ProtocolError) :
    Consistent (conn.raise called error).2 (history.observe exchange (conn.raise called error).1) := by
  rw [observe_raise notExecute]
  exact consistent_raised consistent called error

private theorem consistent_finishQuery (consistent : Consistent conn history) (request : Request) :
    Consistent (conn.finishQuery request exchange.runs).2 history := by
  cases exchange.runs with
  | panicked text => exact consistent_raised consistent _ _
  | answered result => exact consistent.same (texts_finishQuery _ _) rfl (portals_finishQuery _ _)

/-- A discarded message is no news at all. -/
theorem observe_silence (exchange : Exchange) : history.observe exchange ⟨none, []⟩ = history := by
  rw [observe.eq_def]
  split <;> simp

private theorem consistent_finishParse (consistent : Consistent conn history) {declared : List Int}
    (message : exchange.message = .parse name sql declared) :
    Consistent (conn.finishParse name sql declared exchange.describes).2
      (history.observe exchange (conn.finishParse name sql declared exchange.describes).1) := by
  have notExecute : ∀ portal maxRows, exchange.message ≠ .execute portal maxRows := by simp [message]
  cases describes : exchange.describes with
  | panicked text => exact consistent_raise consistent notExecute _ _
  | answered result =>
    cases result with
    | error failure => exact consistent_raise consistent notExecute _ _
    | ok description =>
      rw [finishParse]
      split
      · exact consistent_raise consistent notExecute _ _
      · rename_i answer finished
        rw [Session.finishParse] at finished
        split at finished
        · cases finished
        · rename_i free
          cases finished
          have texts : Session.texts { conn.session with
              statements := fun other => if other = name then
                some ⟨sql, description.fields.getD [], description.fields.isSome⟩
              else conn.session.statements other } = Function.update conn.session.texts name (some sql) := by
            funext other
            by_cases same : other = name <;> simp [Session.texts, same]
          have told : history.observe exchange ⟨some (.describe name sql), [.parseComplete]⟩ =
              history.parsed name ⟨sql, mergeParameterTypes declared description⟩ := by
            simp [observe, message, describes]
          rw [told]
          refine consistent.parsed texts rfl rfl ?_
          simpa [Session.texts, or_iff_not_imp_left] using free

private theorem closed_raise {error : ProtocolError} (fatal : error.isRecoverable = false) (called : Option Request) :
    (conn.raise called error).2.closed = true := by
  rw [raise, fatal]
  rfl

theorem observe_execute (message : exchange.message = .execute portal maxRows) {called : Option Request}
    {frames : List Backend} (answered : frames ≠ []) : history.observe exchange ⟨called, frames⟩ =
      history.executed portal called.isSome (decide (.portalSuspended ∈ frames)) := by
  have nonempty : frames.isEmpty = false := by simpa using answered
  simp [observe, message, nonempty]

private theorem consistent_failed (consistent : Consistent conn history)
    (message : exchange.message = .execute portal maxRows)
    (none : ∀ found, conn.session.portals portal = some found → found.pending = none) (called : Option Request)
    (error : ProtocolError) :
    Consistent (conn.raise called error).2 (history.observe exchange (conn.raise called error).1) := by
  obtain ⟨texts, types, portals⟩ := conn.raise_same called error
  obtain ⟨fatal, frames⟩ := conn.raise_frames called error
  rw [frames, observe_execute message (List.cons_ne_nil _ _)]
  simpa using consistent.failed none texts types portals

/-- A result delivered, be it new or left over. -/
theorem consistent_deliver (consistent : Consistent conn history) {session : Session} {portal : Portal}
    {left : Option Pending} {called : Option Request} {answer : List Backend × Session}
    (message : exchange.message = .execute name maxRows) (there : conn.session.portals name = some portal)
    (texts : session.texts = conn.session.texts)
    (portals : session.portals = fun other => if other = name then some { portal with pending := left }
      else conn.session.portals other) (pending : left.isSome = true)
    (delivered : session.deliver name maxRows = .ok answer) (ran : called.isSome = true ∨ 1 ≤ history.calls name) :
    Consistent { conn with session := answer.2 } (history.observe exchange ⟨called, answer.1⟩) := by
  have thereNow : session.portals name = some { portal with pending := left } := by simp [portals]
  obtain ⟨answered, kept, next, suspended⟩ := session.deliver_eq_ok thereNow pending delivered
  have told : decide (.portalSuspended ∈ answer.1) = kept.isSome := by
    rw [Bool.eq_iff_iff, decide_eq_true_iff, suspended]
  rw [observe_execute message answered, told]
  refine consistent.executed there (by rw [next]; exact texts) rfl ?_ ran
  funext other
  rw [next, setPortal, portals]
  by_cases same : other = name <;> simp [same]

private theorem consistent_finishExecute (consistent : Consistent conn history) {portal : Portal}
    (message : exchange.message = .execute name maxRows) (there : conn.session.portals name = some portal)
    (fresh : portal.pending = none) (request : Request) :
    (conn.finishExecute request name maxRows exchange.runs).2.closed = true ∨
      Consistent (conn.finishExecute request name maxRows exchange.runs).2
        (history.observe exchange (conn.finishExecute request name maxRows exchange.runs).1) := by
  cases exchange.runs with
  | panicked text => exact Or.inl (closed_raise rfl _)
  | answered result =>
    cases result with
    | error failure =>
      right
      refine consistent_failed ?_ message ?_ _ _
      · exact consistent.same (texts_failTransaction _) rfl (portals_failTransaction _)
      · intro found inSession
        rw [portals_failTransaction, there, Option.some_inj] at inSession
        rw [← inSession]
        exact fresh
    | ok result =>
      have lookup : (conn.session.applyTransaction result).portal name = .ok portal := by
        rw [portal_eq_ok, portals_applyTransaction]
        exact there
      rw [finishExecute, Session.finishExecute]
      simp only [lookup]
      cases delivered : deliver _ name maxRows with
      | error error =>
        left
        exact closed_raise (deliver_error _ (if_pos rfl) delivered) _
      | ok answer =>
        right
        have fresh : Option.isSome (some
          ⟨result.fields.length, result.rows, result.tag, 0, result.emptyQuery⟩ : Option Pending) = true := rfl
        refine consistent_deliver consistent message there ?_ ?_ fresh delivered (Or.inl rfl)
        · simp
        · simp [setPortal]

/-- An open connection does what the session does. -/
theorem step_open (isOpen : conn.closed = false) : conn.step formats exchange =
      conn.proceed exchange (conn.session.dispatch (conn.frontend formats exchange.message)) := by
  rw [step, isOpen]
  rfl

section

variable {name : String} {maxRows : Int} {portal : Portal}

theorem step_execute (isOpen : conn.closed = false) (reads : conn.session.skipUntilSync = false)
    (message : exchange.message = .execute name maxRows) :
    conn.step formats exchange = conn.proceed exchange (Session.raise (conn.session.startExecute name maxRows)) := by
  rw [step_open isOpen, message]
  simp [frontend, Session.dispatch, reads]

/-- A portal with a result left over is not run. -/
theorem startExecute_pending (there : conn.session.portals name = some portal)
    (pending : portal.pending.isSome = true) :
    Session.raise (conn.session.startExecute name maxRows) =
      match conn.session.deliver name maxRows with
      | .ok answer => .replied answer.1 answer.2
      | .error error => .raised error := by
  rw [Session.startExecute, conn.session.portal_eq_ok.mpr there, ok_bind, if_pos pending]
  cases conn.session.deliver name maxRows <;> rfl

theorem startExecute_fresh {prepared : Prepared} (there : conn.session.portals name = some portal)
    (fresh : portal.pending = none) (found : conn.session.statements portal.statement = some prepared) :
    Session.raise (conn.session.startExecute name maxRows) =
      .asks (.execute name maxRows prepared.sql portal.params) := by
  rw [Session.startExecute, conn.session.portal_eq_ok.mpr there, ok_bind, if_neg (by simp [fresh]),
    conn.session.statement_eq_ok.mpr found]
  rfl

theorem startExecute_missing (absent : conn.session.portals name = none) :
    ∃ error, Session.raise (conn.session.startExecute name maxRows) = .raised error := by
  rw [Session.startExecute, Session.portal, absent]
  exact ⟨_, rfl⟩

private theorem consistent_execute (isOpen : conn.closed = false) (consistent : Consistent conn history)
    (reads : conn.session.skipUntilSync = false) (message : exchange.message = .execute name maxRows) :
    (conn.step formats exchange).2.closed = true ∨
      Consistent (conn.step formats exchange).2 (history.observe exchange (conn.step formats exchange).1) := by
  rw [step_execute isOpen reads message]
  cases there : conn.session.portals name with
  | none =>
    obtain ⟨error, missing⟩ := startExecute_missing there
    rw [missing]
    exact Or.inr (consistent_failed consistent message (by simp [there]) none error)
  | some portal =>
    obtain ⟨bound, known⟩ := consistent.portals name portal there
    cases pending : portal.pending with
    | none =>
      obtain ⟨prepared, found, _⟩ := Option.map_eq_some_iff.mp known.text
      rw [← known.statement] at found
      rw [startExecute_fresh there pending found]
      exact consistent_finishExecute consistent message there pending _
    | some left =>
      have held : portal.pending.isSome = true := by rw [pending]; rfl
      rw [startExecute_pending there held]
      cases delivered : conn.session.deliver name maxRows with
      | error error => exact Or.inl (closed_raise (conn.session.deliver_error there delivered) none)
      | ok answer =>
        right
        have called : 1 ≤ history.calls name := known.ran (by rw [← known.pending, held])
        refine consistent_deliver consistent message there rfl ?_ held delivered (Or.inr called)
        funext other
        by_cases same : other = name
        · simp [same, there]
        · simp [same]

end

private theorem consistent_bind (consistent : Consistent conn history) {statement : String} {codes : List Format}
    {params : List (Option (List UInt8))} {resultFormats : List Format}
    (message : exchange.message = .bind portal statement codes params resultFormats) {session : Session}
    (bound : conn.session.bind portal statement
      (decodeParams formats (conn.paramTypes statement) codes params) resultFormats = .ok session) :
    Consistent { conn with session := session } (history.observe exchange ⟨none, [.bindComplete]⟩) := by
  obtain ⟨prepared, found, bound⟩ := bind_eq_ok.mp bound
  obtain ⟨decoded, decode, bound⟩ := bind_eq_ok.mp bound
  cases bound
  have there : conn.session.texts statement = some prepared.sql := by
    rw [Session.texts, conn.session.statement_eq_ok.mp found]
    rfl
  have told : history.observe exchange ⟨none, [.bindComplete]⟩ = history.rebound portal statement := by
    simp [observe, message]
  rw [told]
  exact consistent.rebound there (ofTypes_decodeParams decode)

private theorem consistent_close (consistent : Consistent conn history) {kind : TargetKind}
    (message : exchange.message = .close kind name) : Consistent { conn with session := conn.session.close kind name }
      (history.observe exchange ⟨none, [.closeComplete]⟩) := by
  cases kind with
  | statement =>
    have told : history.observe exchange ⟨none, [.closeComplete]⟩ = history.forgotten name := by
      simp [observe, message]
    rw [told]
    exact consistent.closedStatement name
  | portal =>
    have told : history.observe exchange ⟨none, [.closeComplete]⟩ = history := by simp [observe, message]
    rw [told]
    exact consistent.closedPortal name

/-- Messages that are no news to the observer. -/
theorem observe_other {observation : Observation}
    (other : match exchange.message with
      | .query _ | .describe _ _ | .sync | .flush | .terminate | .password | .unsupported _ => True
      | _ => False) : history.observe exchange observation = history := by
  obtain ⟨message, describes, runs⟩ := exchange
  cases message <;> first | rfl | exact other.elim

theorem dispatch_skipping {message : Frontend} (skipping : conn.session.skipUntilSync = true)
    (notSync : message ≠ .sync) (notTerminate : message ≠ .terminate) :
    conn.session.dispatch message = .replied [] conn.session := by
  cases message <;> first | exact absurd rfl notSync | exact absurd rfl notTerminate | exact if_pos skipping

/-- The history stays true over one message, unless it closes the connection. -/
theorem step_consistent (isOpen : conn.closed = false) (consistent : Consistent conn history) :
    (conn.step formats exchange).2.closed = true ∨
      Consistent (conn.step formats exchange).2 (history.observe exchange (conn.step formats exchange).1) := by
  by_cases ends : exchange.message = .terminate
  · left
    rw [step_open isOpen, ends]
    rfl
  by_cases syncs : exchange.message = .sync
  · right
    rw [observe_other (by simp [syncs]), step_open isOpen, syncs]
    exact consistent.same rfl rfl rfl
  cases skipping : conn.session.skipUntilSync with
  | true =>
    right
    have discarded : conn.step formats exchange = (⟨none, []⟩, conn) := by
      rw [step_open isOpen, dispatch_skipping skipping]
      · rfl
      · cases message : exchange.message <;> first | exact absurd message syncs | exact nofun
      · cases message : exchange.message <;> first | exact absurd message ends | exact nofun
    rw [discarded, observe_silence]
    exact consistent
  | false =>
    cases message : exchange.message with
    | execute portal maxRows => exact consistent_execute isOpen consistent skipping message
    | query sql =>
      right
      have dispatched : conn.session.dispatch (conn.frontend formats exchange.message) =
          if sql.blank then .replied (conn.session.finishQuery (.ok .empty)).1
            (conn.session.finishQuery (.ok .empty)).2 else .asks (.query sql) := by
        simp [message, frontend, Session.dispatch, skipping]
      rw [observe_other (by simp [message]), step_open isOpen, dispatched]
      split
      · exact consistent.same (texts_finishQuery _ _) rfl (portals_finishQuery _ _)
      · exact consistent_finishQuery consistent _
    | parse name sql declared =>
      right
      have dispatched : conn.session.dispatch (conn.frontend formats exchange.message) =
          .asks (.describe name sql) := by
        simp [message, frontend, Session.dispatch, skipping]
      have declares : exchange.message.declared = declared := by rw [message]; rfl
      rw [step_open isOpen, dispatched, proceed, ask, declares]
      exact consistent_finishParse consistent message
    | bind portal statement codes params resultFormats =>
      right
      have dispatched : conn.session.dispatch (conn.frontend formats exchange.message) =
          Session.raise (do
            let session ← conn.session.bind portal statement
              (decodeParams formats (conn.paramTypes statement) codes params) resultFormats
            pure (.replied [.bindComplete] session)) := by
        simp [message, frontend, Session.dispatch, skipping]
      rw [step_open isOpen, dispatched]
      cases bound : conn.session.bind portal statement
          (decodeParams formats (conn.paramTypes statement) codes params) resultFormats with
      | error error => exact consistent_raise consistent (by simp [message]) none error
      | ok session => exact consistent_bind consistent message bound
    | describe kind name =>
      right
      have dispatched : conn.session.dispatch (conn.frontend formats exchange.message) =
          Session.raise (do
            let frames ← conn.session.describe kind name
            pure (.replied frames conn.session)) := by
        simp [message, frontend, Session.dispatch, skipping]
      rw [observe_other (by simp [message]), step_open isOpen, dispatched]
      cases conn.session.describe kind name with
      | error error => exact consistent_raised consistent none error
      | ok frames => exact consistent.same rfl rfl rfl
    | close kind name =>
      right
      have dispatched : conn.session.dispatch (conn.frontend formats exchange.message) =
          .replied [.closeComplete] (conn.session.close kind name) := by
        simp [message, frontend, Session.dispatch, skipping]
      rw [step_open isOpen, dispatched]
      exact consistent_close consistent message
    | sync => exact absurd message syncs
    | terminate => exact absurd message ends
    | flush =>
      right
      have dispatched : conn.session.dispatch (conn.frontend formats exchange.message) =
          .replied [] conn.session := by
        simp [message, frontend, Session.dispatch, skipping]
      rw [observe_other (by simp [message]), step_open isOpen, dispatched]
      exact consistent.same rfl rfl rfl
    | password | unsupported tag =>
      left
      have dispatched : ∃ text, conn.session.dispatch (conn.frontend formats exchange.message) =
          .raised (.malformed text) := by
        simp [message, frontend, Session.dispatch, skipping]
      obtain ⟨text, dispatched⟩ := dispatched
      rw [step_open isOpen, dispatched]
      exact closed_raise rfl none

/-! ## Calls of the handler -/

theorem called_raise (called : Option Request) (error : ProtocolError) :
    (conn.raise called error).1.called = called := by
  obtain ⟨fatal, frames⟩ := conn.raise_frames called error
  rw [frames]

theorem called_ask (request : Request) : (conn.ask exchange request).1.called = some request := by
  cases request with
  | query sql =>
    rw [ask]
    cases exchange.runs with
    | panicked text => exact called_raise _ _
    | answered result => rfl
  | describe name sql =>
    rw [ask, finishParse.eq_def]
    split
    · exact called_raise _ _
    · exact called_raise _ _
    · split
      · exact called_raise _ _
      · rfl
  | execute portal maxRows sql params =>
    rw [ask, finishExecute.eq_def]
    split
    · exact called_raise _ _
    · split
      · rfl
      · exact called_raise _ _

private theorem raise_asks {result : Except ProtocolError Dispatched} {request : Request}
    (asks : Session.raise result = .asks request) : result = .ok (.asks request) := by
  cases result with
  | ok dispatched => exact congrArg _ asks
  | error error => cases asks

private theorem startExecute_asks {name' : String} {maxRows' : Int}
    (started : conn.session.startExecute name maxRows = .ok (.asks (.execute name' maxRows' sql params))) :
    name = name' ∧ maxRows = maxRows' := by
  obtain ⟨portal, _, started⟩ := bind_eq_ok.mp started
  split at started
  · obtain ⟨answer, _, started⟩ := bind_eq_ok.mp started
    cases started
  · obtain ⟨prepared, _, started⟩ := bind_eq_ok.mp started
    cases started
    exact ⟨rfl, rfl⟩

private theorem dispatch_execute {message : Message}
    (dispatched : conn.session.dispatch (conn.frontend formats message) = .asks (.execute name maxRows sql params)) :
    conn.session.skipUntilSync = false ∧ message = .execute name maxRows ∧
      conn.session.startExecute name maxRows = .ok (.asks (.execute name maxRows sql params)) := by
  cases skipping : conn.session.skipUntilSync with
  | true => cases message <;> simp [frontend, Session.dispatch, skipping] at dispatched
  | false =>
    cases message with
    | execute portal limit =>
      simp only [frontend, Session.dispatch, skipping] at dispatched
      have started := raise_asks dispatched
      obtain ⟨rfl, rfl⟩ := startExecute_asks started
      exact ⟨rfl, rfl, started⟩
    | bind portal statement codes params resultFormats =>
      simp only [frontend, Session.dispatch, skipping] at dispatched
      obtain ⟨session, _, answered⟩ := bind_eq_ok.mp (raise_asks dispatched)
      cases answered
    | describe kind target =>
      simp only [frontend, Session.dispatch, skipping] at dispatched
      obtain ⟨frames, _, answered⟩ := bind_eq_ok.mp (raise_asks dispatched)
      cases answered
    | query text =>
      simp only [frontend, Session.dispatch, skipping, Bool.false_eq_true, if_false] at dispatched
      split at dispatched <;> cases dispatched
    | _ => simp [frontend, Session.dispatch, skipping] at dispatched

/-- The handler is asked to run a portal by an `Execute` of it, when it has no result
left over; it is given the current text of the portal's statement. -/
theorem called_execute (called : (conn.step formats exchange).1.called = some (.execute name maxRows sql params)) :
    ∃ portal, conn.closed = false ∧ conn.session.skipUntilSync = false ∧ exchange.message = .execute name maxRows ∧
      conn.session.portals name = some portal ∧ portal.pending = none ∧
      conn.session.texts portal.statement = some sql ∧ portal.params = params := by
  cases isOpen : conn.closed with
  | true =>
    rw [step, isOpen] at called
    cases called
  | false =>
    rw [step_open isOpen] at called
    cases dispatched : conn.session.dispatch (conn.frontend formats exchange.message) with
    | replied frames session =>
      rw [dispatched] at called
      cases called
    | raised error =>
      rw [dispatched, proceed, called_raise] at called
      cases called
    | closes =>
      rw [dispatched] at called
      cases called
    | asks request =>
      rw [dispatched, proceed, called_ask, Option.some_inj] at called
      rw [called] at dispatched
      obtain ⟨reads, message, started⟩ := dispatch_execute dispatched
      obtain ⟨portal, lookup, started⟩ := bind_eq_ok.mp started
      split at started
      · obtain ⟨answer, _, started⟩ := bind_eq_ok.mp started
        cases started
      · rename_i notPending
        obtain ⟨prepared, found, started⟩ := bind_eq_ok.mp started
        cases started
        refine ⟨portal, rfl, reads, message, conn.session.portal_eq_ok.mp lookup, by simpa using notPending, ?_, rfl⟩
        rw [Session.texts, conn.session.statement_eq_ok.mp found]
        rfl

end Connection

/-! ## Runs -/

namespace Watched

/-- The observer of an open connection knows the truth. -/
def Truthful (watched : Watched) : Prop :=
  watched.connection.closed = true ∨ Consistent watched.connection watched.history

theorem truthful_step (formats : TextFormats) (watched : Watched) (exchange : Exchange) (truthful : Truthful watched) :
    Truthful (watched.step formats exchange).2 := by
  cases isOpen : watched.connection.closed with
  | true =>
    left
    have ignored : watched.connection.step formats exchange = (⟨none, []⟩, watched.connection) := by
      rw [Connection.step, isOpen]
      rfl
    rw [step, ignored]
    exact isOpen
  | false =>
    rcases truthful with closed | consistent
    · rw [closed] at isOpen
      cases isOpen
    · exact Connection.step_consistent isOpen consistent

theorem truthful_run (formats : TextFormats) (exchanges : List Exchange) :
    Truthful (Machine.run (step formats) start exchanges).2 :=
  Machine.run_always (truthful_step formats) (Or.inr Consistent.start) exchanges

end Watched

end Ferrite.Protocol
