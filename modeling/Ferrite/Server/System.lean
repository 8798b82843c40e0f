import Ferrite.Server.Session

/-!
# Connections on one database

The server as a machine: any number of connections, each a protocol session over an
engine session, that share one database. An input is a frontend message for an idle
connection, or one step of the handler call a busy connection is in; what the call
meets at that step (a fault, the clocks) comes with it. All interleavings of the
connections, at the granularity of single storage and catalog calls, are runs of
this machine.
-/

namespace Ferrite.Server

open Catalog Sql Exec
open Protocol (Backend Frontend ProtocolError QueryResult SqlText FieldDescription)
open Storage (Hasher)

/-- Which message a SQL text is run for. -/
inductive Task where
  | query
  | execute (portal : String) (maxRows : Int)

/-- The handler call a connection is in: a statement of a text with those still to
come, the description of a text to prepare, or the end of the engine session. -/
inductive Job : Type 1 where
  | statement (task : Task) (statement : Statement) (rest : List Statement) (prog : Action QueryResult)
  | describe (name : String) (sql : SqlText) (prog : Action (Option (List FieldDescription)))
  | drop (prog : Action Unit)

/-- A protocol session and the engine session it was handed. -/
structure Connection : Type 1 where
  caller : Identity
  protocol : Protocol.Session
  state : SessionState
  job : Option Job
  closed : Bool

/-- A connection that has just been authenticated. -/
def Connection.new (caller : Identity) : Connection := ⟨caller, .new, .default, none, false⟩

namespace Connection

section

variable (inner : Inner) (conn : Connection)

/-- Close the connection: the engine session is dropped. -/
def shut : Connection := { conn with closed := true, job := some (.drop inner.drop) }

/-- An error the protocol session raised: it is reported, and ends the connection
unless it came from the handler. -/
def raise (error : ProtocolError) : List Backend × Connection :=
  if error.isRecoverable then
    let answer := conn.protocol.reportError error
    (answer.1, { conn with protocol := answer.2, job := none })
  else ([.errorResponse true error], conn.shut inner)

/-- The handler has run a SQL text. -/
def finishText (task : Task) (answer : Except FerriteError QueryResult) : List Backend × Connection :=
  match task with
  | .query =>
    let answer := conn.protocol.finishQuery answer
    (answer.1, { conn with protocol := answer.2, job := none })
  | .execute portal maxRows =>
    match conn.protocol.finishExecute portal maxRows answer with
    | .ok answer => (answer.1, { conn with protocol := answer.2, job := none })
    | .error raised => { conn with protocol := raised.2 }.raise inner raised.1

/-- The handler has described a SQL text. -/
def finishDescribe (name : String) (sql : SqlText) (fields : Option (List FieldDescription)) :
    List Backend × Connection :=
  match conn.protocol.finishParse name sql (.ok fields) with
  | .ok answer => (answer.1, { conn with protocol := answer.2, job := none })
  | .error error => conn.raise inner error

/-- Go on with a SQL text: its statements run in order, the last result counts. -/
def runText (task : Task) (last : QueryResult) : List Statement → List Backend × Connection
  | [] => conn.finishText inner task (.ok last)
  | statement :: rest =>
    ([], { conn with job := some (.statement task statement rest (inner.dispatch conn.caller statement)) })

/-- Hand a SQL text to the handler. -/
def startText (task : Task) (parsed : Except FerriteError (List Statement)) : List Backend × Connection :=
  match parsed with
  | .error e => conn.finishText inner task (.error e)
  | .ok statements => conn.runText inner task .empty statements

/-- The SQL text a message hands to the handler, if it does. -/
def asksText (message : Frontend) : Option (Task × Except FerriteError (List Statement)) :=
  match conn.protocol.dispatch message with
  | .asks (.query sql) => some (.query, sql.parse [])
  | .asks (.execute portal maxRows sql params) => some (.execute portal maxRows, sql.parse params)
  | _ => none

/-- Take a frontend message; a busy or closed connection does not read. -/
def receive (message : Frontend) : List Backend × Connection :=
  if conn.closed || conn.job.isSome then ([], conn)
  else
    match conn.protocol.dispatch message with
    | .replied frames session => (frames, { conn with protocol := session })
    | .raised error => conn.raise inner error
    | .closes => ([], conn.shut inner)
    | .asks (.query sql) => conn.startText inner .query (sql.parse [])
    | .asks (.execute portal maxRows sql params) => conn.startText inner (.execute portal maxRows) (sql.parse params)
    | .asks (.describe name sql) =>
      ([], { conn with job := some (.describe name sql (Inner.describeStatement sql)) })

end

section

variable (inner : Inner) (hasher : Hasher) (moment : Moment) (db : Database)

/-- One step of a program that has not ended: a call, or an access to its state. -/
def advance {α : Type} (state : SessionState) : Action α → Action α × SessionState × Database
  | .call op next =>
    let answer := db.answer hasher moment op
    (next answer.1, state, answer.2)
  | .read next => (next state, state, db)
  | .write state next => (next, state, db)
  | ended => (ended, state, db)

/-- One step of a connection's job. -/
def work (conn : Connection) : (List Backend × Connection) × Database :=
  match conn.job with
  | none => (([], conn), db)
  | some (.statement task _ rest (.done result)) => (conn.runText inner task result rest, db)
  | some (.statement task _ _ (.fail error)) => (conn.finishText inner task (.error error), db)
  | some (.statement task statement rest prog) =>
    let (prog, state, db) := advance hasher moment db conn.state prog
    (([], { conn with state := state, job := some (.statement task statement rest prog) }), db)
  | some (.describe name sql (.done fields)) =>
    (conn.finishDescribe inner name sql fields, db)
  | some (.describe _ _ (.fail error)) => (conn.raise inner (.ferrite error), db)
  | some (.describe name sql prog) =>
    let (prog, state, db) := advance hasher moment db conn.state prog
    (([], { conn with state := state, job := some (.describe name sql prog) }), db)
  | some (.drop (.done _)) => (([], { conn with job := none }), db)
  | some (.drop (.fail _)) => (([], { conn with job := none }), db)
  | some (.drop prog) =>
    let (prog, state, db) := advance hasher moment db conn.state prog
    (([], { conn with state := state, job := some (.drop prog) }), db)

end
end Connection

abbrev ConnId := Nat

structure System : Type 1 where
  database : Database
  connections : ConnId → Connection

/-- A message arrives at a connection, or a busy one takes a step. -/
inductive Input where
  | receive (conn : ConnId) (message : Frontend)
  | work (conn : ConnId) (moment : Moment)

def Input.conn : Input → ConnId
  | .receive conn _ => conn
  | .work conn _ => conn

namespace System

/-- Every connection has just been authenticated. -/
def start (database : Database) (callers : ConnId → Identity) : System := ⟨database, fun conn => .new (callers conn)⟩

def set (system : System) (id : ConnId) (conn : Connection) (database : Database) : System :=
  ⟨database, fun other => if other = id then conn else system.connections other⟩

def step (inner : Inner) (hasher : Hasher) (system : System) : Input → List Backend × System
  | .receive id message =>
    let answer := (system.connections id).receive inner message
    (answer.1, system.set id answer.2 system.database)
  | .work id moment =>
    let answer := (system.connections id).work inner hasher moment system.database
    (answer.1.1, system.set id answer.1.2 answer.2)

end System

/-! ## A server to try things on -/

/-- Everyone may do everything, nothing is triggered, and transactions may stay open. -/
def openServer : Inner where
  formats := .decimal
  procs := ⟨fun _ => [[.admin]], fun _ _ => [], fun _ => none⟩
  maxRows := 100
  transactionTimeout := none

/-- A server that has just been started on a new database. -/
def freshSystem (hasher : Hasher) : System := .start (.create .decimal hasher 16) fun _ => 0

/-- A text of the given statements. -/
def textOf (statements : List Statement) : SqlText := ⟨false, 0, fun _ => .ok statements⟩

/-- `CREATE TABLE name (a INT)`. -/
def createOfInt (name : String) : Statement :=
  .createTable ⟨false, ⟨[name]⟩, [⟨"a", .int4, []⟩], []⟩

/-- `INSERT INTO name VALUES (value)`. -/
def insertInt (name : String) (value : Int32) : Statement :=
  .insert ⟨⟨[name]⟩, [], [[fun _ _ => .ok fun _ => .ok (.int4 value)]], none⟩

/-- `SELECT * FROM name`. -/
def selectAll (name : String) : Statement := .query
    { tables := [⟨[name]⟩]
      shape := fun schemas => .ok ⟨[none], schemas.headD ⟨[]⟩, fun scans => .ok (scans.headD [])⟩ }

/-- Send a text to a connection and let it work, undisturbed, for so many steps. -/
def send (id : ConnId) (statements : List Statement) (steps : Nat) : List Input :=
  .receive id (.query (textOf statements)) :: List.replicate steps (.work id .calm)

end Ferrite.Server
