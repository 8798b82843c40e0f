import Ferrite.Exec.Executor
import Ferrite.Logical.Transcript
import Ferrite.Protocol.Throttle
import Ferrite.Protocol.Wire

/-!
# From an accepted socket to a session

`serve_connection_from`, `negotiate`, `authenticate` and `run_session` of
`ferrite-protocol/src/session.rs`. The peer is the list of bytes it is going to send. A
TLS acceptor takes what is left of them on the socket and gives the stream it decrypts,
or fails; it is an arbitrary function. So are the authenticator, the throttle's verdict
and what the session makes of its messages. Every step that waits may fail, by an I/O
error or because it takes too long.
-/

namespace Ferrite.Protocol

open Logical Exec Process

/-! ## The line to a peer -/

inductive Channel where
  | plain
  | tls
deriving DecidableEq

/-- What the server writes up to the first query, and when it gives up. -/
inductive OpeningFrame where
  | sslAnswer (accepted : Bool)
  | errorResponse (fatal : Bool) (sqlstate message : String)
  | authenticationCleartextPassword
  | authenticationOk
  | parameterStatus (key value : String)
  | backendKeyData (processId secretKey : Int)
  | readyForQuery (status : TransactionStatus)
deriving DecidableEq

/-- What the server does on a connection. -/
inductive Deed where
  | wrote (frame : OpeningFrame)
  | readStartup (request : StartupRequest)
  | readMessage (message : WireMessage)
  | calledAuthenticator (user database : String) (password : Octets)
  | completedAccept
deriving DecidableEq

/-- A connection: the stream it is on, what the peer has yet to send there, and which of
the next steps that wait fail. -/
structure Line where
  channel : Channel
  input : Buffer UInt8
  faults : List (Option String)

/-- A deed is noted with the channel it was done on. -/
abbrev Talk := Process Line (Channel × Deed) WireError

namespace Talk

def note (deed : Deed) : Talk Unit := fun line => ⟨[(line.channel, deed)], .ok (), line⟩

def wait : Talk Unit := fun line =>
  match line.faults with
  | some message :: faults => ⟨[], .error (.io message), { line with faults := faults }⟩
  | none :: faults => ⟨[], .ok (), { line with faults := faults }⟩
  | [] => ⟨[], .ok (), line⟩

/-- Take something off the stream. After a failure nothing is read any more. -/
def take {α : Type} (reader : Wire α) : Talk α := fun line =>
  match reader.run line.input with
  | .ok answer => ⟨[], .ok answer.1, { line with input := answer.2 }⟩
  | .error error => ⟨[], .error error, line⟩

def receive {α : Type} (reader : Wire α) : Talk α := do
  wait
  take reader

/-- A write that fails may have been carried out in part, so it counts. -/
def write (frame : OpeningFrame) : Talk Unit := do
  note (.wrote frame)
  wait

def readStartup : Talk StartupRequest := do
  let request ← receive Wire.readStartup
  note (.readStartup request)
  pure request

def readMessage (maxMessageSize : Nat) : Talk WireMessage := do
  let message ← receive (Wire.readMessage maxMessageSize)
  note (.readMessage message)
  pure message

/-- Give the socket to the acceptor and go on with the stream it returns. -/
def handOver (acceptor : Octets → Except String Octets) : Talk Unit := fun line =>
  match acceptor line.input.rest with
  | .error message => ⟨[], .error (.tls message), line⟩
  | .ok stream => ⟨[(line.channel, .completedAccept)], .ok (), { line with channel := .tls, input := ⟨stream⟩ }⟩

def accept (acceptor : Octets → Except String Octets) : Talk Unit := do
  wait
  handOver acceptor

end Talk

/-! ## The server's configuration -/

/-- Whether a listener speaks TLS. -/
inductive TlsMode where
  | required (acceptor : Octets → Except String Octets)
  | disabled

namespace TlsMode

def isRequired : TlsMode → Bool
  | .required _ => true
  | .disabled => false

def acceptor : TlsMode → Option (Octets → Except String Octets)
  | .required acceptor => some acceptor
  | .disabled => none

end TlsMode

/-- A named bundle of permissions. -/
structure Role where
  name : String
  permissions : List Permission

structure AuthOutcome where
  identity : Identity
  role : Role

def mayConnect (role : Role) : Bool :=
  role.permissions.any fun permission => permission == .connect || permission == .admin

/-- What a listener needs. The throttle is given by its verdict when it is asked, and the
handler by what a session makes of the last of the messages it has got. -/
structure ServerConfig where
  tls : TlsMode
  authenticator : String → String → Octets → Except WireError AuthOutcome
  throttleAdmits : Option IpAddr → String → Bool
  dispatch : List WireMessage → Except WireError Unit
  maxMessageSize : Nat
  serverVersion : String
  backendKey : Int × Int

/-- What a client is told right after authentication. -/
def ServerConfig.parameterStatus (config : ServerConfig) (params : StartupParams) : List (String × String) :=
  [("server_version", config.serverVersion), ("server_encoding", "UTF8"), ("client_encoding", "UTF8"),
    ("DateStyle", "ISO, MDY"), ("TimeZone", "UTC"), ("integer_datetimes", "on"),
    ("standard_conforming_strings", "on"), ("is_superuser", "off"), ("session_authorization", params.user)] ++
  match params.options.find? fun option => option.1 = "application_name" with
  | some option => [("application_name", option.2)]
  | none => []

namespace WireError

def ferriteSqlstate : FerriteError → String
  | .tableNotFound _ => "42P01"
  | .columnNotFound _ => "42703"
  | .typeMismatch _ _ => "42804"
  | .rowNotFound => "02000"
  | .txnNotActive _ => "25P01"
  | .permissionDenied _ => "42501"
  | .serializationFailure => "40001"
  | .storage _ => "XX000"
  | .parse _ => "42601"
  | .plan _ | .exec _ => "XX000"
  | .protocol _ => "08P01"
  | .objectAlreadyExists _ => "42710"
  | .uniqueViolation _ _ => "23505"
  | .timeout _ => "57014"
  | .resourceLimit _ => "54000"
  | .invalidDefinition _ => "42P16"

/-- The SQLSTATE reported to the client. -/
def sqlstate : WireError → String
  | .io _ | .closed => "08006"
  | .malformed _ | .messageTooLarge _ _ => "08P01"
  | .unsupportedVersion _ _ => "0A000"
  | .authFailed _ => "28P01"
  | .tlsRequired => "28000"
  | .tls _ => "08006"
  | .handlerPanic _ => "XX000"
  | .ferrite error => ferriteSqlstate error

/-- Only errors of the query handler leave the byte stream trustworthy. -/
def isRecoverable : WireError → Bool
  | .ferrite _ => true
  | _ => false

end WireError

/-! ## Before a session -/

inductive Negotiated where
  | startup (params : StartupParams)
  | upgradeTls
  | closed
deriving DecidableEq

section

variable (config : ServerConfig)

/-- The packets a client may send before its startup message, at most that many. -/
def negotiateRounds (encrypted : Bool) : Nat → Talk Negotiated
  | 0 => fail (.malformed "too many pre-startup packets without a StartupMessage")
  | rounds + 1 => do
    match ← Talk.readStartup with
    | .sslRequest =>
      if encrypted then fail (.malformed "SSLRequest on an already encrypted connection")
      else if config.tls.isRequired then pure .upgradeTls
      else do
        Talk.write (.sslAnswer false)
        negotiateRounds encrypted rounds
    | .gssEncRequest => do
      Talk.write (.sslAnswer false)
      negotiateRounds encrypted rounds
    | .cancel _ _ => pure .closed
    | .startup params =>
      if config.tls.isRequired && !encrypted then do
        Talk.write (.errorResponse true "28000" "this server requires TLS; reconnect with sslmode=require")
        fail .tlsRequired
      else pure (.startup params)

def negotiate (encrypted : Bool) : Talk Negotiated := negotiateRounds config encrypted 3

/-- The terminator of a password message is not part of the secret. -/
def stripTerminator (raw : Octets) : Octets :=
  if raw.getLast? = some 0 then raw.dropLast else raw

/-- A refusal is held back for as long as the throttle asks. -/
def failSlowly {α : Type} (error : WireError) : Talk α := do
  Talk.wait
  fail error

/-- Ask the authenticator about a password. -/
def verify (params : StartupParams) (password : Octets) : Talk AuthOutcome := do
  Talk.note (.calledAuthenticator params.user params.database password)
  Talk.wait
  match config.authenticator params.user params.database password with
  | .error error => failSlowly error
  | .ok outcome =>
    if mayConnect outcome.role then pure outcome else failSlowly (.authFailed params.user)

def authenticate (peer : Option IpAddr) (params : StartupParams) : Talk AuthOutcome :=
  if config.throttleAdmits peer params.user then do
    Talk.write .authenticationCleartextPassword
    match ← Talk.readMessage config.maxMessageSize with
    | .password raw => verify config params (stripTerminator raw)
    | .terminate => fail .closed
    | _ => fail (.malformed "expected a password message during authentication")
  else fail (.authFailed params.user)

/-! ## Sessions -/

/-- Tell the peer why the connection ends, unless it is gone. -/
def reportFatal (message : WireError → String) (error : WireError) : Talk Unit :=
  match error with
  | .closed | .io _ => pure ()
  | other => do
    let _ ← (Talk.write (.errorResponse true other.sqlstate (message other))).attempt
    pure ()

/-- The first messages of a session, given how errors are put in words. -/
def runMessages (message : WireError → String) : Nat → List WireMessage → Talk Unit
  | 0, _ => pure ()
  | rounds + 1, seen => do
    match ← (Talk.readMessage config.maxMessageSize).attempt with
    | .error .closed => pure ()
    | .error error => do
      reportFatal message error
      fail error
    | .ok .terminate => pure ()
    | .ok received =>
      match config.dispatch (seen ++ [received]) with
      | .ok () => runMessages message rounds (seen ++ [received])
      | .error .closed => pure ()
      | .error error =>
        if error.isRecoverable then do
          Talk.write (.errorResponse false error.sqlstate (message error))
          runMessages message rounds (seen ++ [received])
        else do
          reportFatal message error
          fail error

/-- The frames of a session that has just been established. -/
def welcome (params : StartupParams) : List OpeningFrame :=
  .authenticationOk :: (config.parameterStatus params).map (fun pair => .parameterStatus pair.1 pair.2) ++
    [.backendKeyData config.backendKey.1 config.backendKey.2, .readyForQuery .idle]

/-- One frame after another. -/
def writeAll : List OpeningFrame → Talk Unit
  | [] => pure ()
  | frame :: frames => do
    Talk.write frame
    writeAll frames

/-- The refusal a failed authentication is answered with. -/
def refusal (debug : String → String) : WireError → OpeningFrame
  | .authFailed user =>
    .errorResponse true "28P01" s!"password authentication failed for user {debug user}"
  | other => .errorResponse true other.sqlstate "authentication failed"

variable (debug : String → String) (message : WireError → String) (rounds : Nat) (peer : Option IpAddr)

def runSession (params : StartupParams) : Talk Unit := do
  match ← (authenticate config peer params).attempt with
  | .error error => do
    let _ ← (Talk.write (refusal debug error)).attempt
    fail error
  | .ok _ => do
    writeAll (welcome config params)
    runMessages config message rounds []

/-- What happens on the stream a TLS accept has returned. -/
def serveEncrypted : Talk Unit := do
  match ← negotiate config true with
  | .startup params => runSession config debug message rounds peer params
  | .closed => pure ()
  | .upgradeTls => fail (.malformed "nested SSLRequest")

/-- Serve a connection, up to a number of messages of its session. -/
def serveConnectionFrom : Talk Unit := do
  match ← negotiate config false with
  | .startup params => runSession config debug message rounds peer params
  | .closed => pure ()
  | .upgradeTls =>
    match config.tls.acceptor with
    | none => fail (.tls "no TLS acceptor configured")
    | some acceptor => do
      Talk.write (.sslAnswer true)
      Talk.accept acceptor
      serveEncrypted config debug message rounds peer

end
end Ferrite.Protocol
