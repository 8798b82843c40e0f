import Ferrite.Protocol.Executions

/-!
# Portals delivered in parts

An `Execute` with a row limit keeps the rows it did not send with the portal, and the next
`Execute` of the portal goes on with them. Whatever other messages come in between, as long
as none of them binds or closes the portal or closes its statement, the parts put together
are the result of the one run of the statement.
-/

namespace Ferrite.Protocol

open Sql Logical Session

/-- A message that leaves a portal of a statement in place. -/
def Message.Spares (name statement : String) : Message → Prop
  | .bind portal _ _ _ _ => portal ≠ name
  | .close .portal other => other ≠ name
  | .close .statement other => other ≠ statement
  | _ => True

instance (name statement : String) : (message : Message) → Decidable (message.Spares name statement)
  | .bind _ _ _ _ _ => inferInstanceAs (Decidable (_ ≠ _))
  | .close .portal _ => inferInstanceAs (Decidable (_ ≠ _))
  | .close .statement _ => inferInstanceAs (Decidable (_ ≠ _))
  | .query _ | .parse _ _ _ | .describe _ _ | .execute _ _ | .sync | .flush | .terminate | .password
  | .unsupported _ => .isTrue trivial

/-- The row sent by a frame. -/
def Backend.row? : Backend → Option Row
  | .dataRow row _ => some row
  | _ => none

def Backend.completes : Backend → Bool
  | .commandComplete _ => true
  | _ => false

/-- An `Execute` and its answer. -/
structure Reply where
  maxRows : Int
  frames : List Backend

namespace Reply

def rows (reply : Reply) : List Row := reply.frames.filterMap Backend.row?

def completes (reply : Reply) : Bool := reply.frames.any Backend.completes

/-- The answers up to the first `CommandComplete`. -/
def untilComplete : List Reply → List Reply
  | [] => []
  | reply :: rest => if reply.completes then [reply] else reply :: untilComplete rest

/-- Rows with the frame that follows them. -/
def part (codes : List Format) (rows : List Row) (last : Backend) : List Backend :=
  rows.map (fun row => .dataRow row codes) ++ [last]

section

variable (maxRows : Int) (codes : List Format) (rows : List Row)

@[simp] theorem rows_part (last : Backend) (noRow : last.row? = none) :
    Reply.rows ⟨maxRows, part codes rows last⟩ = rows := by
  have sent : (rows.map fun row => Backend.dataRow row codes).filterMap Backend.row? = rows := by
    rw [List.filterMap_map]
    exact List.filterMap_some
  rw [Reply.rows, part, List.filterMap_append, sent]
  simp [noRow]

@[simp] theorem completes_part (last : Backend) :
    Reply.completes ⟨maxRows, part codes rows last⟩ = last.completes := by
  have none : (rows.map fun row => Backend.dataRow row codes).any Backend.completes = false := by
    simp [Backend.completes]
  rw [Reply.completes, part, List.any_append, none]
  simp

end

end Reply

/-- A result of which nothing has been sent. -/
def Pending.ofResult (result : QueryResult) : Pending :=
  ⟨result.fields.length, result.rows, result.tag, 0, result.emptyQuery⟩

namespace Session

variable {session : Session} {name : String} {maxRows : Int} {portal : Portal} {pending : Pending}
  {codes : List Format}

/-- What is left of a result after some rows were sent. -/
def remaining (pending : Pending) (limit : Nat) : Option Pending :=
  if (pending.rows.drop limit).isEmpty then none
  else some { pending with rows := pending.rows.drop limit, sent := pending.sent + limit }

private theorem remaining_eq_some {limit : Nat} {left : Pending} (remains : remaining pending limit = some left) :
    left = { pending with rows := pending.rows.drop limit, sent := pending.sent + limit } := by
  rw [remaining] at remains
  split at remains
  · cases remains
  · exact (Option.some.inj remains).symm

/-- The frame after the rows of an `Execute`. -/
def closing (pending : Pending) (limit : Nat) : Backend :=
  if (pending.rows.drop limit).isEmpty then .commandComplete (finishedTag pending.tag (pending.sent + limit))
  else .portalSuspended

private theorem deliver_part (there : session.portals name = some portal) (held : portal.pending = some pending)
    (query : pending.emptyQuery = false) (valid : resolveFormats portal.resultFormats pending.fieldCount = .ok codes) :
    session.deliver name maxRows = .ok (Reply.part codes (pending.rows.take (rowLimit maxRows pending.rows.length))
          (closing pending (rowLimit maxRows pending.rows.length)),
        session.setPortal name
          { portal with pending := remaining pending (rowLimit maxRows pending.rows.length) }) := by
  rw [deliver, session.portal_eq_ok.mpr there, ok_bind, held]
  simp only [query, valid, ok_bind, Bool.false_eq_true, if_false, closing, remaining, Reply.part]
  split <;> rfl

private theorem portals_deliver {other : String} {answer : List Backend × Session} (different : name ≠ other)
    (delivered : session.deliver other maxRows = .ok answer) : answer.2.portals name = session.portals name := by
  rw [deliver] at delivered
  obtain ⟨found, -, delivered⟩ := bind_eq_ok.mp delivered
  split at delivered
  · cases delivered
    rfl
  split at delivered
  · cases delivered
    exact if_neg different
  · obtain ⟨codes, -, delivered⟩ := bind_eq_ok.mp delivered
    dsimp only at delivered
    split at delivered
    all_goals
      cases delivered
      exact if_neg different

end Session

namespace Connection

variable {conn : Connection} {exchange : Exchange} {name : String} {portal : Portal}

/-- Messages are read, not skipped. -/
def reads (conn : Connection) : Bool := !conn.closed && !conn.session.skipUntilSync

/-- The row limit of a message that is a processed `Execute` of the portal. -/
def executes (conn : Connection) (name : String) : Message → Option Int
  | .execute portal maxRows => if portal = name ∧ conn.reads = true then some maxRows else none
  | _ => none

private theorem executes_eq_some {message : Message} {maxRows : Int} : conn.executes name message = some maxRows ↔
    conn.closed = false ∧ conn.session.skipUntilSync = false ∧ message = .execute name maxRows := by
  cases message with
  | execute other limit =>
    simp only [executes, reads]
    grind
  | _ => simp [executes]

private theorem portals_raise (called : Option Request) (error : ProtocolError) :
    (conn.raise called error).2.session.portals = conn.session.portals :=
  (raise_same called error).2.2

private theorem portals_finishExecute_other {other : String} {maxRows : Int} (different : name ≠ other)
    (request : Request)
    (runs : Outcome QueryResult) :
    (conn.finishExecute request other maxRows runs).2.session.portals name = conn.session.portals name := by
  cases runs with
  | panicked text => rw [finishExecute, portals_raise]
  | answered result =>
    rw [finishExecute]
    cases result with
    | error failure =>
      dsimp only [Session.finishExecute]
      rw [portals_raise, Session.portals_failTransaction]
    | ok result =>
      rw [Session.finishExecute]
      dsimp only
      cases (conn.session.applyTransaction result).portal other with
      | error error =>
        dsimp only
        rw [portals_raise, portals_applyTransaction]
      | ok found =>
        dsimp only
        have kept : (((conn.session.applyTransaction result).learnFields found.statement
            result.fields).setPortal other
              { found with pending := some ⟨result.fields.length, result.rows, result.tag, 0, result.emptyQuery⟩ }
            ).portals name = conn.session.portals name := by
          simp [setPortal, different]
        split
        · rename_i answer finished
          split at finished
          · cases finished
          · rename_i delivered
            cases finished
            exact (portals_deliver different delivered).trans kept
        · rename_i raised finished
          split at finished
          · cases finished
            rw [portals_raise]
            exact kept
          · cases finished

/-- What a message leads to leaves a portal as it is. -/
def KeepsPortal (conn : Connection) (name : String) : Dispatched → Prop
  | .replied _ session => session.portals name = conn.session.portals name
  | .asks (.execute other _ _ _) => name ≠ other
  | .asks _ | .raised _ | .closes => True

private theorem portals_finishParse {text : String} {sql : SqlText} {declared : List Int}
    (describes : Outcome StatementDescription) :
    (conn.finishParse text sql declared describes).2.session.portals = conn.session.portals := by
  rcases describes with (failure | description) | message
  · exact portals_raise _ _
  · rw [finishParse]
    cases finished : conn.session.finishParse text sql (.ok description.fields) with
    | error error => exact portals_raise _ _
    | ok answer =>
      rw [Session.finishParse] at finished
      split at finished
      · cases finished
      · cases finished
        rfl
  · exact portals_raise _ _

private theorem portals_proceed {dispatched : Dispatched} (keeps : conn.KeepsPortal name dispatched) :
    (conn.proceed exchange dispatched).2.session.portals name = conn.session.portals name := by
  cases dispatched with
  | replied frames session => exact keeps
  | raised error => exact congrFun (portals_raise none error) name
  | closes => rfl
  | asks request =>
    cases request with
    | query sql =>
      rw [proceed, ask]
      cases exchange.runs with
      | panicked text => exact congrFun (portals_raise _ _) name
      | answered result => exact congrFun (portals_finishQuery _ result) name
    | describe text sql => exact congrFun (portals_finishParse exchange.describes) name
    | execute other maxRows sql params => exact portals_finishExecute_other keeps _ exchange.runs

private theorem keepsPortal_startExecute {other : String} {maxRows : Int} (different : name ≠ other) :
    conn.KeepsPortal name (Session.raise (conn.session.startExecute other maxRows)) := by
  rw [Session.startExecute]
  cases conn.session.portal other with
  | error error => trivial
  | ok found =>
    rw [ok_bind]
    split
    · cases delivered : conn.session.deliver other maxRows with
      | error error => trivial
      | ok answer => exact portals_deliver different delivered
    · cases conn.session.statement found.statement with
      | error error => trivial
      | ok prepared => exact different

/-- A message that spares a portal and does not execute it leaves it as it is. -/
theorem portals_step_other (formats : TextFormats) (there : conn.session.portals name = some portal)
    (spares : exchange.message.Spares name portal.statement) (idle : conn.executes name exchange.message = none) :
    (conn.step formats exchange).2.session.portals name = conn.session.portals name := by
  cases isOpen : conn.closed with
  | true =>
    rw [step, isOpen]
    rfl
  | false =>
    rw [step_open isOpen]
    refine portals_proceed ?_
    cases skipping : conn.session.skipUntilSync with
    | true =>
      cases exchange.message with
      | sync => rfl
      | terminate => trivial
      | _ =>
        simp only [frontend, dispatch, skipping, if_true]
        exact rfl
    | false =>
      cases message : exchange.message with
      | query sql =>
        simp only [frontend, dispatch, skipping, Bool.false_eq_true, if_false]
        split
        · exact congrFun (portals_finishQuery _ _) name
        · trivial
      | bind other statement codes params resultFormats =>
        rw [message] at spares
        simp only [frontend, dispatch, skipping, Bool.false_eq_true, if_false]
        cases bound : conn.session.bind other statement
            (decodeParams formats (conn.paramTypes statement) codes params) resultFormats with
        | error error => trivial
        | ok session =>
          rw [Session.bind] at bound
          obtain ⟨prepared, -, bound⟩ := bind_eq_ok.mp bound
          obtain ⟨values, -, bound⟩ := bind_eq_ok.mp bound
          cases bound
          exact if_neg (Ne.symm spares)
      | describe kind text =>
        simp only [frontend, dispatch, skipping, Bool.false_eq_true, if_false]
        cases conn.session.describe kind text with
        | error error => trivial
        | ok frames => exact rfl
      | execute other maxRows =>
        have different : name ≠ other := by
          rintro rfl
          rw [message] at idle
          simp [executes, reads, isOpen, skipping] at idle
        simp only [frontend, dispatch, skipping, Bool.false_eq_true, if_false]
        exact keepsPortal_startExecute different
      | close kind other =>
        rw [message] at spares
        simp only [frontend, dispatch, skipping, Bool.false_eq_true, if_false]
        cases kind with
        | statement =>
          change (conn.session.portals name).filter _ = conn.session.portals name
          simpa [there] using Ne.symm spares
        | portal => exact if_neg (Ne.symm spares)
      | parse _ _ _ => simp [frontend, dispatch, skipping, KeepsPortal]
      | sync => rfl
      | flush => simp [frontend, dispatch, skipping, KeepsPortal]
      | terminate => trivial
      | password => simp [frontend, dispatch, skipping, KeepsPortal]
      | unsupported tag => simp [frontend, dispatch, skipping, KeepsPortal]

variable {maxRows : Int} {pending : Pending} {codes : List Format}

private theorem step_resume (formats : TextFormats) (executed : conn.executes name exchange.message = some maxRows)
    (there : conn.session.portals name = some portal) (held : portal.pending = some pending)
    (query : pending.emptyQuery = false) (valid : resolveFormats portal.resultFormats pending.fieldCount = .ok codes) :
    (conn.step formats exchange).1.frames =
        Reply.part codes (pending.rows.take (rowLimit maxRows pending.rows.length))
          (closing pending (rowLimit maxRows pending.rows.length)) ∧
      (conn.step formats exchange).2.session.portals name = some { portal with
          pending := remaining pending (rowLimit maxRows pending.rows.length) } := by
  obtain ⟨isOpen, reads, message⟩ := executes_eq_some.mp executed
  rw [step_execute isOpen reads message, startExecute_pending there (by simp [held]),
    deliver_part there held query valid]
  exact ⟨rfl, if_pos rfl⟩

private theorem step_run (formats : TextFormats) {prepared : Prepared} {result : QueryResult}
    (executed : conn.executes name exchange.message = some maxRows)
    (there : conn.session.portals name = some portal) (fresh : portal.pending = none)
    (found : conn.session.statements portal.statement = some prepared) (ran : exchange.runs = .answered (.ok result))
    (query : result.emptyQuery = false) (valid : resolveFormats portal.resultFormats result.fields.length = .ok codes) :
    (conn.step formats exchange).1.frames =
        Reply.part codes (result.rows.take (rowLimit maxRows result.rows.length))
          (closing (.ofResult result) (rowLimit maxRows result.rows.length)) ∧
      (conn.step formats exchange).2.session.portals name = some { portal with
          pending := remaining (.ofResult result) (rowLimit maxRows result.rows.length) } := by
  obtain ⟨isOpen, reads, message⟩ := executes_eq_some.mp executed
  have lookup : (conn.session.applyTransaction result).portal name = .ok portal := by
    rw [portal_eq_ok, portals_applyTransaction]
    exact there
  rw [step_execute isOpen reads message, startExecute_fresh there fresh found, proceed, ask, ran, finishExecute,
    Session.finishExecute]
  simp only [lookup]
  have delivered := @Session.deliver_part
    (((conn.session.applyTransaction result).learnFields portal.statement result.fields).setPortal name
      { portal with pending := some (.ofResult result) })
    name maxRows { portal with pending := some (.ofResult result) } (.ofResult result) codes (if_pos rfl) rfl query valid
  rw [Pending.ofResult] at delivered
  rw [delivered]
  exact ⟨rfl, if_pos rfl⟩

end Connection

/-! ## Whole deliveries -/

/-- The answers to the processed `Execute`s of a portal. -/
def replies (formats : TextFormats) (name : String) : Connection → List Exchange → List Reply
  | _, [] => []
  | conn, exchange :: rest =>
    let answer := conn.step formats exchange
    match conn.executes name exchange.message with
    | some maxRows => ⟨maxRows, answer.1.frames⟩ :: replies formats name answer.2 rest
    | none => replies formats name answer.2 rest

/-- The answers deliver rows: in order and each once, as many as the limit says where the
portal is suspended, all of them and counted where the command is complete. -/
structure Delivers (codes : List Format) (rows : List Row) (total : Nat) (sent : List Reply) : Prop where
  inOrder : sent.flatMap Reply.rows <+: rows
  suspended : ∀ reply ∈ sent, reply.completes = false →
    ∃ some, reply.frames = Reply.part codes some .portalSuspended ∧ (some.length : Int) = reply.maxRows
  completed : ∀ reply ∈ sent, reply.completes = true → sent.flatMap Reply.rows = rows ∧
    ∃ last, reply.frames = Reply.part codes last (.commandComplete (CommandTag.select total).toWire)

namespace Delivers

variable {codes : List Format} {rows first rest : List Row} {total : Nat} {sent : List Reply} {maxRows : Int}

private theorem nil : Delivers codes rows total [] := ⟨List.nil_prefix, nofun, nofun⟩

private theorem complete : Delivers codes rows total
    [⟨maxRows, Reply.part codes rows (.commandComplete (CommandTag.select total).toWire)⟩] := by
  have all := Reply.rows_part maxRows codes rows (.commandComplete (CommandTag.select total).toWire) rfl
  refine ⟨?_, ?_, ?_⟩
  · simp [all]
  · intro reply member incomplete
    obtain rfl := List.mem_singleton.mp member
    rw [Reply.completes_part] at incomplete
    cases incomplete
  · intro reply member _
    obtain rfl := List.mem_singleton.mp member
    exact ⟨by simp [all], rows, rfl⟩

private theorem suspend (exactly : (first.length : Int) = maxRows) (later : Delivers codes rest total sent) :
    Delivers codes (first ++ rest) total (⟨maxRows, Reply.part codes first .portalSuspended⟩ :: sent) := by
  have part := Reply.rows_part maxRows codes first .portalSuspended rfl
  have open_ := Reply.completes_part maxRows codes first .portalSuspended
  refine ⟨?_, ?_, ?_⟩
  · rw [List.flatMap_cons, part]
    exact (List.prefix_append_right_inj first).mpr later.inOrder
  · intro reply member incomplete
    rcases List.mem_cons.mp member with rfl | member
    · exact ⟨first, rfl, exactly⟩
    · exact later.suspended reply member incomplete
  · intro reply member complete
    rcases List.mem_cons.mp member with rfl | member
    · rw [open_] at complete
      cases complete
    · obtain ⟨all, last⟩ := later.completed reply member complete
      exact ⟨by rw [List.flatMap_cons, part, all], last⟩

/-- An answer that sends a part of a result, followed by the delivery of what it left over. -/
theorem part {pending : Pending} {count : Nat} {replies : List Reply} (selects : pending.tag = .select count)
    (later : ∀ left, remaining pending (rowLimit maxRows pending.rows.length) = some left →
      Delivers codes left.rows (left.sent + left.rows.length) (Reply.untilComplete replies)) :
    Delivers codes pending.rows (pending.sent + pending.rows.length) (Reply.untilComplete (⟨maxRows, Reply.part codes
        (pending.rows.take (rowLimit maxRows pending.rows.length))
        (closing pending (rowLimit maxRows pending.rows.length))⟩ :: replies)) := by
  have most : rowLimit maxRows pending.rows.length ≤ pending.rows.length := by
    rw [rowLimit]
    split
    · exact Nat.le_refl _
    · exact Nat.min_le_right _ _
  rw [Reply.untilComplete, Reply.completes_part]
  by_cases exhausted : pending.rows.length ≤ rowLimit maxRows pending.rows.length
  · have all : rowLimit maxRows pending.rows.length = pending.rows.length := Nat.le_antisymm most exhausted
    rw [closing, all, List.drop_length, List.take_length, selects]
    exact complete
  · have left : (pending.rows.drop (rowLimit maxRows pending.rows.length)).isEmpty = false := by
      simpa using exhausted
    have limited : (rowLimit maxRows pending.rows.length : Int) = maxRows := by
      rw [rowLimit] at exhausted ⊢
      split at exhausted <;> rename_i limit
      · omega
      · rw [if_neg limit]
        omega
    have rest := later { pending with
      rows := pending.rows.drop (rowLimit maxRows pending.rows.length)
      sent := pending.sent + rowLimit maxRows pending.rows.length } (by rw [remaining, left]; rfl)
    have total : pending.sent + rowLimit maxRows pending.rows.length +
        (pending.rows.drop (rowLimit maxRows pending.rows.length)).length =
          pending.sent + pending.rows.length := by
      rw [List.length_drop]
      omega
    dsimp only at rest
    rw [total] at rest
    have whole := @suspend codes (pending.rows.take (rowLimit maxRows pending.rows.length)) _ _ _ maxRows
      (by rw [List.length_take, Nat.min_eq_left most, limited]) rest
    rw [List.take_append_drop] at whole
    simpa [closing, left, Backend.completes] using whole

end Delivers

variable {formats : TextFormats} {conn : Connection} {name : String} {portal : Portal} {codes : List Format}
  {count : Nat}

/-- What is left of a result is delivered by the `Execute`s that follow. -/
theorem delivers_held {exchanges : List Exchange} {pending : Pending}
    (there : conn.session.portals name = some { portal with pending := some pending })
    (query : pending.emptyQuery = false) (selects : pending.tag = .select count)
    (valid : resolveFormats portal.resultFormats pending.fieldCount = .ok codes)
    (spared : ∀ exchange ∈ exchanges, exchange.message.Spares name portal.statement) :
    Delivers codes pending.rows (pending.sent + pending.rows.length)
      (Reply.untilComplete (replies formats name conn exchanges)) := by
  induction exchanges generalizing conn pending with
  | nil => exact .nil
  | cons exchange rest ih =>
    have later := fun other member => spared other (List.mem_cons_of_mem exchange member)
    rw [replies]
    cases executed : conn.executes name exchange.message with
    | none =>
      have kept := Connection.portals_step_other formats there (spared exchange List.mem_cons_self) executed
      exact ih (kept.trans there) query selects valid later
    | some maxRows =>
      obtain ⟨frames, next⟩ := Connection.step_resume formats executed there rfl query valid
      dsimp only
      rw [frames]
      refine Delivers.part selects fun left remains => ?_
      rw [remains] at next
      obtain rfl := remaining_eq_some remains
      exact ih next query selects valid later

/-- The rows of a `SELECT` run by an `Execute` are delivered by it and the `Execute`s that
follow, whatever messages come in between. -/
theorem suspended_portal_delivers_each_row_once (formats : TextFormats) (conn : Connection) (name : String)
    {portal : Portal} {prepared : Prepared} {first : Exchange} {maxRows : Int} {result : QueryResult}
    (there : conn.session.portals name = some portal) (fresh : portal.pending = none)
    (found : conn.session.statements portal.statement = some prepared)
    (executed : conn.executes name first.message = some maxRows) (ran : first.runs = .answered (.ok result))
    (selects : result.tag = .select count) (query : result.emptyQuery = false)
    (valid : resolveFormats portal.resultFormats result.fields.length = .ok codes) (rest : List Exchange)
    (spared : ∀ exchange ∈ rest, exchange.message.Spares name portal.statement) :
    Delivers codes result.rows result.rows.length
      (Reply.untilComplete (replies formats name conn (first :: rest))) := by
  obtain ⟨frames, next⟩ := Connection.step_run formats executed there fresh found ran query valid
  rw [replies, executed]
  dsimp only
  rw [frames]
  have delivered := @Delivers.part codes maxRows (.ofResult result) count
    (replies formats name (conn.step formats first).2 rest) selects fun left remains => by
      have held := next.trans (congrArg (fun left => some { portal with pending := left }) remains)
      obtain rfl := remaining_eq_some remains
      exact delivers_held held query selects valid spared
  rw [show (Pending.ofResult result).sent = 0 from rfl, Nat.zero_add] at delivered
  exact delivered

/-- A handler that runs a statement to three rows. -/
def threeRows : QueryResult := .ofRows [⟨"n", .int4⟩] [⟨[.int4 1]⟩, ⟨[.int4 2]⟩, ⟨[.int4 3]⟩]

def selecting (message : Message) : Exchange := ⟨message, .answered (.ok ⟨[], none⟩), .answered (.ok threeRows)⟩

/-- Two rows, a simple query and a `Sync`, then the rest. -/
theorem three_rows_in_two_parts :
    Delivers [.text] threeRows.rows 3 (Reply.untilComplete (replies .decimal "p"
      (Machine.run (Connection.step .decimal) .new
        ([.parse "s" (plainText .begin) [], .bind "p" "s" [] [] []].map selecting)).2
      ([.execute "p" 2, .query (plainText .begin), .sync, .execute "p" 2].map selecting))) :=
  suspended_portal_delivers_each_row_once .decimal _ "p" rfl rfl rfl rfl rfl rfl rfl rfl _ (by decide)

end Ferrite.Protocol
