import Ferrite.Sql.Statement

/-!
# The wire-protocol session

`ferrite-protocol/src/session.rs` after authentication: what a connection remembers
between two frontend messages, what it answers, and when it calls its query handler.
A handler call takes its time, so each message that makes one is split at the call:
`dispatch` says what to ask the handler, the `finish` functions take its answer.
Frames are given by their content, and parameter decoding by its result.
-/

namespace Ferrite.Protocol

open Sql

/-- Transaction state reported by every `ReadyForQuery`. -/
inductive TransactionStatus where
  | idle
  | inTransaction
  | failed
deriving DecidableEq

/-- The byte a status is sent as. -/
def TransactionStatus.code : TransactionStatus → Char
  | .idle => 'I'
  | .inTransaction => 'T'
  | .failed => 'E'

structure FieldDescription where
  name : String
  dataType : DataType
deriving DecidableEq

inductive CommandTag where
  | select (count : Nat)
  | insert (count : Nat)
  | update (count : Nat)
  | delete (count : Nat)
  | begin
  | commit
  | rollback
  | other (text : String)
deriving DecidableEq

def CommandTag.toWire : CommandTag → String
  | .select count => s!"SELECT {count}"
  | .insert count => s!"INSERT 0 {count}"
  | .update count => s!"UPDATE {count}"
  | .delete count => s!"DELETE {count}"
  | .begin => "BEGIN"
  | .commit => "COMMIT"
  | .rollback => "ROLLBACK"
  | .other text => text

/-- The outcome of one statement. `transaction` is set when the statement changed the
transaction state. -/
structure QueryResult where
  fields : List FieldDescription
  rows : List Row
  tag : CommandTag
  transaction : Option TransactionStatus
  emptyQuery : Bool
deriving DecidableEq

namespace QueryResult

def ofRows (fields : List FieldDescription) (rows : List Row) : QueryResult :=
  ⟨fields, rows, .select rows.length, none, false⟩

def command (tag : CommandTag) : QueryResult := ⟨[], [], tag, none, false⟩

def empty : QueryResult := { command (.other "") with emptyQuery := true }

def withTransaction (result : QueryResult) (status : TransactionStatus) : QueryResult :=
  { result with transaction := some status }

end QueryResult

/-- A SQL text: whether it is only blanks, how many parameters it takes, and what
parsing it gives once they are bound. -/
structure SqlText where
  blank : Bool
  parameters : Nat
  parse : List Value → Except FerriteError (List Statement)

inductive Format where
  | text
  | binary
deriving DecidableEq

inductive TargetKind where
  | statement
  | portal
deriving DecidableEq

/-- What can go wrong on a connection that stays open for reading. -/
inductive ProtocolError where
  | malformed (message : String)
  | handlerPanic (message : String)
  | ferrite (error : FerriteError)
deriving DecidableEq

/-- Only errors raised by the query handler leave the byte stream trustworthy. -/
def ProtocolError.isRecoverable : ProtocolError → Bool
  | .ferrite _ => true
  | .malformed _ | .handlerPanic _ => false

/-- A decoded frontend message. The parameters of a `Bind` are given as decoded. -/
inductive Frontend where
  | query (sql : SqlText)
  | parse (name : String) (sql : SqlText)
  | bind (portal statement : String) (params : Except ProtocolError (List Value))
      (resultFormats : List Format)
  | describe (kind : TargetKind) (name : String)
  | execute (portal : String) (maxRows : Int)
  | close (kind : TargetKind) (name : String)
  | sync
  | flush
  | terminate
  | password
  | unsupported (tag : Char)

/-- A frame sent to the client. -/
inductive Backend where
  | readyForQuery (status : TransactionStatus)
  | errorResponse (fatal : Bool) (error : ProtocolError)
  | rowDescription (fields : List FieldDescription) (formats : List Format)
  | dataRow (row : Row) (formats : List Format)
  | commandComplete (tag : String)
  | emptyQueryResponse
  | parseComplete
  | bindComplete
  | closeComplete
  | portalSuspended
  | noData
  | parameterDescription
deriving DecidableEq

structure Prepared where
  sql : SqlText
  fields : List FieldDescription
  described : Bool

/-- A partially delivered result set. -/
structure Pending where
  fieldCount : Nat
  rows : List Row
  tag : CommandTag
  sent : Nat
  emptyQuery : Bool

structure Portal where
  statement : String
  params : List Value
  resultFormats : List Format
  pending : Option Pending

structure Session where
  transaction : TransactionStatus
  statements : String → Option Prepared
  portals : String → Option Portal
  skipUntilSync : Bool

/-- What a message asks of the query handler, and what for. -/
inductive Request where
  | query (sql : SqlText)
  | describe (name : String) (sql : SqlText)
  | execute (portal : String) (maxRows : Int) (sql : SqlText) (params : List Value)

/-- What becomes of a message before the handler is called. -/
inductive Dispatched where
  | replied (frames : List Backend) (session : Session)
  | asks (request : Request)
  | raised (error : ProtocolError)
  | closes

/-- The format of each of `count` values. -/
def resolveFormats (codes : List Format) (count : Nat) : Except ProtocolError (List Format) :=
  match codes with
  | [] => .ok (List.replicate count .text)
  | [code] => .ok (List.replicate count code)
  | _ =>
    if codes.length = count then .ok codes
    else .error (.malformed s!"{codes.length} format codes for {count} values")

/-- A `SELECT` tag counts what was actually sent. -/
def finishedTag (tag : CommandTag) (sent : Nat) : String :=
  match tag with
  | .select _ => (CommandTag.select sent).toWire
  | other => other.toWire

namespace Session

/-- A session that has just been authenticated. -/
def new : Session := ⟨.idle, fun _ => none, fun _ => none, false⟩

def statement (session : Session) (name : String) : Except ProtocolError Prepared :=
  match session.statements name with
  | some prepared => .ok prepared
  | none => .error (.ferrite (.exec s!"prepared statement {name.quote} does not exist"))

def portal (session : Session) (name : String) : Except ProtocolError Portal :=
  match session.portals name with
  | some portal => .ok portal
  | none => .error (.ferrite (.exec s!"portal {name.quote} does not exist"))

def setPortal (session : Session) (name : String) (portal : Portal) : Session :=
  { session with portals := fun other => if other = name then some portal else session.portals other }

def applyTransaction (session : Session) (result : QueryResult) : Session :=
  match result.transaction with
  | some status => { session with transaction := status }
  | none => session

@[simp] theorem portals_applyTransaction (session : Session) (result : QueryResult) :
    (session.applyTransaction result).portals = session.portals := by
  rw [applyTransaction]
  split <;> rfl

def failTransaction (session : Session) : Session :=
  if session.transaction = .inTransaction then { session with transaction := .failed } else session

/-- Extended-flow failure: drop everything until the next `Sync`. -/
def reportError (session : Session) (error : ProtocolError) : List Backend × Session :=
  ([.errorResponse false error], { session with skipUntilSync := true }.failTransaction)

/-- The answer to a simple query. -/
def queryFrames (result : QueryResult) : List Backend :=
  if result.emptyQuery then [.emptyQueryResponse]
  else
    let formats := List.replicate result.fields.length Format.text
    (if result.fields.isEmpty then [] else [.rowDescription result.fields formats])
      ++ result.rows.map (fun row => .dataRow row formats)
      ++ [.commandComplete result.tag.toWire]

/-- The end of `simple_query`. -/
def finishQuery (session : Session) (answer : Except FerriteError QueryResult) : List Backend × Session :=
  match answer with
  | .ok result =>
    let session := session.applyTransaction result
    (queryFrames result ++ [.readyForQuery session.transaction], session)
  | .error e =>
    let session := session.failTransaction
    ([.errorResponse false (.ferrite e), .readyForQuery session.transaction], session)

/-- The end of `parse`: a named statement may not be redefined while it exists. -/
def finishParse (session : Session) (name : String) (sql : SqlText)
    (answer : Except FerriteError (Option (List FieldDescription))) :
    Except ProtocolError (List Backend × Session) :=
  match answer with
  | .error e => .error (.ferrite e)
  | .ok fields =>
    if name ≠ "" ∧ (session.statements name).isSome then
      .error (.ferrite (.exec s!"prepared statement {name.quote} already exists"))
    else
      .ok ([.parseComplete],
        { session with
          statements := fun other =>
            if other = name then some ⟨sql, fields.getD [], fields.isSome⟩
            else session.statements other })

/-- A handler may only learn the shape of its output by running the statement. -/
def learnFields (session : Session) (name : String) (fields : List FieldDescription) : Session :=
  match session.statements name with
  | some prepared =>
    if fields.isEmpty ∨ prepared.described then session
    else
      { session with
        statements := fun other =>
          if other = name then some { prepared with fields := fields, described := true }
          else session.statements other }
  | none => session

/-- How many rows an `Execute` may send; zero and negative limits mean all of them. -/
def rowLimit (maxRows : Int) (available : Nat) : Nat :=
  if maxRows ≤ 0 then available else min maxRows.toNat available

/-- The part of `execute` after a result is at hand: send up to the limit. -/
def deliver (session : Session) (name : String) (maxRows : Int) :
    Except ProtocolError (List Backend × Session) := do
  let portal ← session.portal name
  match portal.pending with
  | none => pure ([], session)
  | some pending =>
    if pending.emptyQuery then
      pure ([.emptyQueryResponse], session.setPortal name { portal with pending := none })
    else
      let formats ← resolveFormats portal.resultFormats pending.fieldCount
      let limit := rowLimit maxRows pending.rows.length
      let sent := pending.sent + limit
      let frames := (pending.rows.take limit).map fun row => Backend.dataRow row formats
      let left := pending.rows.drop limit
      if left.isEmpty then
        pure (frames ++ [.commandComplete (finishedTag pending.tag sent)],
          session.setPortal name { portal with pending := none })
      else
        pure (frames ++ [.portalSuspended], session.setPortal name
            { portal with pending := some { pending with rows := left, sent := sent } })

/-- The end of `execute` after the handler ran the statement; an error fails the
transaction here already. -/
def finishExecute (session : Session) (name : String) (maxRows : Int)
    (answer : Except FerriteError QueryResult) :
    Except (ProtocolError × Session) (List Backend × Session) :=
  match answer with
  | .error e => .error (.ferrite e, session.failTransaction)
  | .ok result =>
    let session := session.applyTransaction result
    match session.portal name with
    | .error e => .error (e, session)
    | .ok portal =>
      let session := session.learnFields portal.statement result.fields
      let session := session.setPortal name
        { portal with
          pending := some ⟨result.fields.length, result.rows, result.tag, 0, result.emptyQuery⟩ }
      match session.deliver name maxRows with
      | .error e => .error (e, session)
      | .ok answer => .ok answer

def describe (session : Session) (kind : TargetKind) (name : String) :
    Except ProtocolError (List Backend) := do
  match kind with
  | .statement =>
    let prepared ← session.statement name
    let formats := List.replicate prepared.fields.length Format.text
    pure [.parameterDescription,
      if prepared.described && !prepared.fields.isEmpty then .rowDescription prepared.fields formats
      else .noData]
  | .portal =>
    let portal ← session.portal name
    let prepared ← session.statement portal.statement
    if prepared.described && !prepared.fields.isEmpty then
      let formats ← resolveFormats portal.resultFormats prepared.fields.length
      pure [.rowDescription prepared.fields formats]
    else pure [.noData]

def bind (session : Session) (name statement : String) (params : Except ProtocolError (List Value))
    (resultFormats : List Format) : Except ProtocolError Session := do
  let prepared ← session.statement statement
  let params ← params
  let formats := if resultFormats.isEmpty then List.replicate prepared.fields.length .text
    else resultFormats
  pure (session.setPortal name ⟨statement, params, formats, none⟩)

/-- The start of `execute`: a portal with rows left over is resumed. -/
def startExecute (session : Session) (name : String) (maxRows : Int) :
    Except ProtocolError Dispatched := do
  let portal ← session.portal name
  if portal.pending.isSome then
    let answer ← session.deliver name maxRows
    pure (.replied answer.1 answer.2)
  else
    let prepared ← session.statement portal.statement
    pure (.asks (.execute name maxRows prepared.sql portal.params))

def close (session : Session) (kind : TargetKind) (name : String) : Session :=
  match kind with
  | .statement =>
    { session with
      statements := fun other => if other = name then none else session.statements other
      portals := fun other => (session.portals other).filter fun portal => portal.statement != name }
  | .portal =>
    { session with portals := fun other => if other = name then none else session.portals other }

/-- An error of `execute` before the handler ran. -/
def raise (result : Except ProtocolError Dispatched) : Dispatched :=
  match result with
  | .ok dispatched => dispatched
  | .error e => .raised e

/-- What a message leads to. After a failure in the extended flow everything up to the
next `Sync` is discarded. -/
def dispatch (session : Session) (message : Frontend) : Dispatched :=
  match message with
  | .terminate => .closes
  | .sync => .replied [.readyForQuery session.transaction] { session with skipUntilSync := false }
  | other =>
    if session.skipUntilSync then .replied [] session
    else
      match other with
      | .query sql =>
        if sql.blank then
          let answer := session.finishQuery (.ok .empty)
          .replied answer.1 answer.2
        else .asks (.query sql)
      | .parse name sql => .asks (.describe name sql)
      | .bind portal statement params resultFormats =>
        raise (do
          let session ← session.bind portal statement params resultFormats
          pure (.replied [.bindComplete] session))
      | .describe kind name =>
        raise (do
          let frames ← session.describe kind name
          pure (.replied frames session))
      | .execute portal maxRows => raise (session.startExecute portal maxRows)
      | .close kind name => .replied [.closeComplete] (session.close kind name)
      | .password =>
        .raised (.malformed "unexpected password message outside authentication")
      | .unsupported tag =>
        .raised (.malformed s!"message type {tag.quote} is not supported")
      | _ => .replied [] session

end Session
end Ferrite.Protocol
