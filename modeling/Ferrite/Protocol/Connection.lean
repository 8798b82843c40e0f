import Ferrite.Logical.Machine
import Ferrite.Protocol.Parameters

/-!
# One connection, any handler

The message loop of `session.rs` over an arbitrary query handler: what the handler
answers, or that it panics, comes with each message. An error the handler returned
leaves the connection usable, every other one closes it. Beside the connection stands
a history, which is what an observer of the messages and their answers knows.
-/

namespace Ferrite.Protocol

open Sql

/-- What a call of the handler comes to. -/
inductive Outcome (α : Type) where
  | answered (result : Except FerriteError α)
  | panicked (message : String)

/-- A frontend message as it is read off the wire. -/
inductive Message where
  | query (sql : SqlText)
  | parse (name : String) (sql : SqlText) (declared : List Int)
  | bind (portal statement : String) (paramFormats : List Format) (params : List (Option (List UInt8)))
      (resultFormats : List Format)
  | describe (kind : TargetKind) (name : String)
  | execute (portal : String) (maxRows : Int)
  | close (kind : TargetKind) (name : String)
  | sync
  | flush
  | terminate
  | password
  | unsupported (tag : Char)

/-- The types a `Parse` declares. -/
def Message.declared : Message → List Int
  | .parse _ _ declared => declared
  | _ => []

/-- A message with what the handler will say to it, should it be asked. -/
structure Exchange where
  message : Message
  describes : Outcome StatementDescription
  runs : Outcome QueryResult

/-- What became of a message: the call it led to and the frames sent back. -/
structure Observation where
  called : Option Request
  frames : List Backend

structure Connection where
  session : Session
  paramTypes : String → List DataType
  closed : Bool

namespace Connection

/-- A connection that has just been authenticated. -/
def new : Connection := ⟨.new, fun _ => [], false⟩

variable (formats : TextFormats) (conn : Connection)

/-- A message with its parameters decoded for the statement it binds. -/
def frontend : Message → Frontend
  | .query sql => .query sql
  | .parse name sql _ => .parse name sql
  | .bind portal statement paramFormats params resultFormats =>
    .bind portal statement (decodeParams formats (conn.paramTypes statement) paramFormats params) resultFormats
  | .describe kind name => .describe kind name
  | .execute portal maxRows => .execute portal maxRows
  | .close kind name => .close kind name
  | .sync => .sync
  | .flush => .flush
  | .terminate => .terminate
  | .password => .password
  | .unsupported tag => .unsupported tag

/-- An error is reported; unless it came from the handler it ends the connection. -/
def raise (called : Option Request) (error : ProtocolError) : Observation × Connection :=
  if error.isRecoverable then
    let answer := conn.session.reportError error
    (⟨called, answer.1⟩, { conn with session := answer.2 })
  else (⟨called, [.errorResponse true error]⟩, { conn with closed := true })

def guard (message : String) : ProtocolError := .handlerPanic s!"the query handler: {message}"

/-- The handler was asked to run a simple query. -/
def finishQuery (request : Request) : Outcome QueryResult → Observation × Connection
  | .panicked message => conn.raise (some request) (guard message)
  | .answered result =>
    let answer := conn.session.finishQuery result
    (⟨some request, answer.1⟩, { conn with session := answer.2 })

/-- The handler was asked to describe a statement. -/
def finishParse (name : String) (sql : SqlText) (declared : List Int) :
    Outcome StatementDescription → Observation × Connection
  | .panicked message => conn.raise (some (.describe name sql)) (guard message)
  | .answered (.error failure) => conn.raise (some (.describe name sql)) (.ferrite failure)
  | .answered (.ok description) =>
    match conn.session.finishParse name sql (.ok description.fields) with
    | .error error => conn.raise (some (.describe name sql)) error
    | .ok answer =>
      (⟨some (.describe name sql), answer.1⟩,
        { conn with
          session := answer.2
          paramTypes := Function.update conn.paramTypes name (mergeParameterTypes declared description) })

/-- The handler was asked to run a portal. -/
def finishExecute (request : Request) (portal : String) (maxRows : Int) :
    Outcome QueryResult → Observation × Connection
  | .panicked message => conn.raise (some request) (guard message)
  | .answered result =>
    match conn.session.finishExecute portal maxRows result with
    | .ok answer => (⟨some request, answer.1⟩, { conn with session := answer.2 })
    | .error raised => { conn with session := raised.2 }.raise (some request) raised.1

/-- Call the handler and take its answer. -/
def ask (exchange : Exchange) : Request → Observation × Connection
  | .query sql => conn.finishQuery (.query sql) exchange.runs
  | .describe name sql => conn.finishParse name sql exchange.message.declared exchange.describes
  | .execute portal maxRows sql params =>
    conn.finishExecute (.execute portal maxRows sql params) portal maxRows exchange.runs

/-- What a message leads to. -/
def proceed (exchange : Exchange) : Dispatched → Observation × Connection
  | .replied frames session => (⟨none, frames⟩, { conn with session := session })
  | .raised error => conn.raise none error
  | .closes => (⟨none, []⟩, { conn with closed := true })
  | .asks request => conn.ask exchange request

/-- Take one message. -/
def step (exchange : Exchange) : Observation × Connection :=
  if conn.closed then (⟨none, []⟩, conn)
  else conn.proceed exchange (conn.session.dispatch (conn.frontend formats exchange.message))

end Connection

/-! ## The observer -/

/-- A prepared statement as its `Parse` settled it. -/
structure Known where
  sql : SqlText
  paramTypes : List DataType

/-- What a portal was bound to. -/
structure Bound where
  statement : String
  known : Known

/-- What the messages and their answers tell. `prepared` are the statements on record,
`bound` what each portal was bound to by its latest successful `Bind`. Since that
`Bind`: `reparsed` is the text the unnamed statement was parsed with last, `calls`
counts the runs of the portal, `suspended` says that the last answer to an `Execute`
of it left rows over. -/
structure History where
  prepared : String → Option Known
  bound : String → Option Bound
  reparsed : String → Option SqlText
  calls : String → Nat
  suspended : String → Bool

namespace History

def start : History := ⟨fun _ => none, fun _ => none, fun _ => none, fun _ => 0, fun _ => false⟩

variable (history : History)

def parsed (name : String) (known : Known) : History :=
  { history with
    prepared := Function.update history.prepared name (some known)
    reparsed := if name = "" then fun _ => some known.sql else history.reparsed }

/-- A completed `Bind`. -/
def rebound (portal statement : String) : History :=
  { history with
    bound := Function.update history.bound portal ((history.prepared statement).map (Bound.mk statement))
    reparsed := Function.update history.reparsed portal none
    calls := Function.update history.calls portal 0
    suspended := Function.update history.suspended portal false }

/-- An `Execute` of a portal, with or without a run of it. -/
def executed (portal : String) (ran suspended : Bool) : History :=
  { history with
    calls := if ran then Function.update history.calls portal (history.calls portal + 1) else history.calls
    suspended := Function.update history.suspended portal suspended }

/-- A statement closed. -/
def forgotten (name : String) : History := { history with prepared := Function.update history.prepared name none }

/-- Note a message and what became of it. -/
def observe (exchange : Exchange) (observation : Observation) : History :=
  match exchange.message, exchange.describes with
  | .parse name sql declared, .answered (.ok description) =>
    if .parseComplete ∈ observation.frames then
      history.parsed name ⟨sql, mergeParameterTypes declared description⟩
    else history
  | .bind portal statement _ _ _, _ =>
    if .bindComplete ∈ observation.frames then history.rebound portal statement else history
  | .execute portal _, _ =>
    -- a message skipped after an error is answered with nothing
    if observation.frames.isEmpty then history
    else history.executed portal observation.called.isSome (.portalSuspended ∈ observation.frames)
  | .close .statement name, _ =>
    if .closeComplete ∈ observation.frames then history.forgotten name else history
  | _, _ => history

end History

/-- A connection and what its observer knows. -/
structure Watched where
  connection : Connection
  history : History

namespace Watched

def start : Watched := ⟨.new, .start⟩

def step (formats : TextFormats) (watched : Watched) (exchange : Exchange) : Observation × Watched :=
  let answer := watched.connection.step formats exchange
  (answer.1, ⟨answer.2, watched.history.observe exchange answer.1⟩)

end Watched

end Ferrite.Protocol
