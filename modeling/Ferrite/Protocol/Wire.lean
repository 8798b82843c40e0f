import Ferrite.Logical.Decoding
import Ferrite.Logical.LittleEndian
import Ferrite.Protocol.Session

/-!
# Messages on the wire

Framing and decoding of what a client sends (`codec.rs`, `message.rs` and `buf.rs` of
`ferrite-protocol`). A frame is read off the stream length first and its length is
checked before its body is read; the body is then decoded on its own. Nothing beyond the
frame is taken from the stream.
-/

namespace Ferrite.Protocol

open Logical Reader

abbrev Octets := List UInt8

/-- What can go wrong between a socket and a session. -/
inductive WireError where
  | malformed (message : String)
  | messageTooLarge (length limit : Nat)
  | unsupportedVersion (major minor : Nat)
  | authFailed (user : String)
  | tlsRequired
  | tls (message : String)
  | closed
  | io (message : String)
  | handlerPanic (message : String)
  | ferrite (error : FerriteError)
deriving DecidableEq

/-- A loop that takes something in every round never fails with this. -/
instance : Inhabited WireError := ⟨.closed⟩

/-- A step of a reader of bytes. -/
abbrev Wire := Reader (Buffer UInt8) WireError

/-! ## Inside a frame -/

namespace Wire

def malformed {α : Type} (message : String) : Wire α := fail fun _ => .malformed message

/-- Big-endian numbers. -/
def ofBe (bytes : Octets) : Nat := ofLe bytes.reverse

def remaining : Wire Nat := look fun buffer => buffer.rest.length

/-- The next bytes of a body. -/
def takeBytes (count : Nat) : Wire Octets := do
  let left ← remaining
  take (.malformed s!"need {count} bytes, only {left} left") count

def u8 : Wire Nat := do
  let bytes ← takeBytes 1
  pure (ofBe bytes)

def i16 : Wire Int := do
  let bytes ← takeBytes 2
  pure (UInt16.ofNat (ofBe bytes)).toInt16.toInt

def i32 : Wire Int := do
  let bytes ← takeBytes 4
  pure (UInt32.ofNat (ofBe bytes)).toInt32.toInt

/-- The derived `Debug` of a byte read as a character. -/
def charDebug (code : Nat) : String :=
  let shown :=
    if code = 0 then "\\0"
    else if code = 9 then "\\t"
    else if code = 10 then "\\n"
    else if code = 13 then "\\r"
    else if code = 39 then "\\'"
    else if code = 92 then "\\\\"
    else if code < 32 ∨ (127 ≤ code ∧ code ≤ 160) ∨ code = 173 then
      "\\u\x7b" ++ String.ofList (Nat.toDigits 16 code) ++ "\x7d"
    else (Char.ofNat code).toString
  "'" ++ shown ++ "'"

/-- The bytes up to the next zero byte, if there is one. -/
def untilNul : Wire (Option Octets) := look fun buffer =>
  if (0 : UInt8) ∈ buffer.rest then some (buffer.rest.takeWhile (· ≠ 0)) else none

/-- A string that ends with a zero byte. -/
def cstr : Wire String := do
  match ← untilNul with
  | none => malformed "unterminated string"
  | some bytes => do
    move (Buffer.skip (bytes.length + 1)) (Buffer.skip_le _)
    match String.fromUTF8? ⟨bytes.toArray⟩ with
    | some text => pure text
    | none => malformed "string is not valid UTF-8"

def nullableBytes : Wire (Option Octets) := do
  let length ← i32
  if length = -1 then pure none
  else if length < 0 then malformed s!"negative field length {length}"
  else do
    let bytes ← takeBytes length.toNat
    pure (some bytes)

def count : Wire Nat := do
  let number ← i16
  if number < 0 then malformed s!"negative count {number}" else pure number.toNat

/-- A message is fully consumed by its own decoder. -/
def finish : Wire Unit := do
  let left ← remaining
  if left = 0 then pure () else malformed s!"{left} trailing bytes"

def format : Wire Format := do
  let code ← i16
  if code = 0 then pure .text
  else if code = 1 then pure .binary
  else malformed s!"unknown format code {code}"

def formats : Wire (List Format) := do
  let number ← count
  times format number

def targetKind : Wire TargetKind := do
  let byte ← u8
  if byte = 83 then pure .statement
  else if byte = 80 then pure .portal
  else malformed s!"unknown describe/close target {charDebug byte}"

end Wire

/-! ## Packets before a session -/

structure StartupParams where
  user : String
  database : String
  options : List (String × String)
deriving DecidableEq

def protocolVersion3 : Int := 196608
def sslRequestCode : Int := 80877103
def gssencRequestCode : Int := 80877104
def cancelRequestCode : Int := 80877102

def maxStartupPacketLen : Nat := 10000

/-- What a client sent on a freshly opened socket. -/
inductive StartupRequest where
  | startup (params : StartupParams)
  | sslRequest
  | gssEncRequest
  | cancel (processId secretKey : Int)
deriving DecidableEq

namespace StartupRequest

open Wire

/-- One more key and value of a startup packet, or its end. -/
def paramStep (params : StartupParams) : Wire (StartupParams ⊕ StartupParams) := do
  let left ← remaining
  if left = 0 then malformed "startup packet is not terminated"
  else do
    let key ← cstr
    if key = "" then pure (.inr params)
    else do
      let value ← cstr
      pure (.inl (
        if key = "user" then { params with user := value }
        else if key = "database" then { params with database := value }
        else { params with options := params.options ++ [(key, value)] }))

def decodeStartupParams : Wire StartupParams := do
  let params ← loop paramStep ⟨"", "", []⟩
  if params.user = "" then malformed "startup packet has no user"
  else if params.database = "" then pure { params with database := params.user }
  else pure params

/-- The body of a startup packet. -/
def decodeBody : Wire StartupRequest := do
  let code ← i32
  if code = sslRequestCode then do
    finish
    pure .sslRequest
  else if code = gssencRequestCode then do
    finish
    pure .gssEncRequest
  else if code = cancelRequestCode then do
    let processId ← i32
    let secretKey ← i32
    finish
    pure (.cancel processId secretKey)
  else if code = protocolVersion3 then do
    let params ← decodeStartupParams
    pure (.startup params)
  else fail fun _ => .unsupportedVersion (code / 65536 % 65536).toNat (code % 65536).toNat

end StartupRequest

/-! ## Messages of a session -/

/-- A decoded frontend message. -/
inductive WireMessage where
  | query (sql : String)
  | parse (name sql : String) (paramTypes : List Int)
  | bind (portal statement : String) (paramFormats : List Format) (params : List (Option Octets))
      (resultFormats : List Format)
  | describe (kind : TargetKind) (name : String)
  | execute (portal : String) (maxRows : Int)
  | close (kind : TargetKind) (name : String)
  | sync
  | flush
  | terminate
  | password (raw : Octets)
  | unsupported (tag : Nat)
deriving DecidableEq

namespace WireMessage

open Wire

/-- A message that must be all there is in its body. -/
def whole (message : Wire WireMessage) : Wire WireMessage := do
  let decoded ← message
  finish
  pure decoded

def decodeQuery : Wire WireMessage := do
  let sql ← cstr
  pure (.query sql)

def decodeParse : Wire WireMessage := do
  let name ← cstr
  let sql ← cstr
  let number ← count
  let paramTypes ← times i32 number
  pure (.parse name sql paramTypes)

def decodeBind : Wire WireMessage := do
  let portal ← cstr
  let statement ← cstr
  let paramFormats ← formats
  let number ← count
  let params ← times nullableBytes number
  let resultFormats ← formats
  pure (.bind portal statement paramFormats params resultFormats)

def decodeDescribe : Wire WireMessage := do
  let kind ← targetKind
  let name ← cstr
  pure (.describe kind name)

def decodeExecute : Wire WireMessage := do
  let portal ← cstr
  let maxRows ← i32
  if maxRows < 0 then malformed "negative row limit" else pure (.execute portal maxRows)

def decodeClose : Wire WireMessage := do
  let kind ← targetKind
  let name ← cstr
  pure (.close kind name)

/-- The body of a message with its tag. The password is the body as it is, and what is
not supported is not looked at. -/
def decodeBody (tag : Nat) : Wire WireMessage :=
  match tag with
  | 81 => whole decodeQuery
  | 80 => whole decodeParse
  | 66 => whole decodeBind
  | 68 => whole decodeDescribe
  | 69 => whole decodeExecute
  | 67 => whole decodeClose
  | 83 => whole (pure .sync)
  | 72 => whole (pure .flush)
  | 88 => whole (pure .terminate)
  | 112 => do
    let raw ← look fun buffer => buffer.rest
    pure (.password raw)
  | other => pure (.unsupported other)

end WireMessage

/-! ## Frames -/

namespace Wire

/-- The length of a body, checked before the body is read. -/
def readLen (limit : Nat) : Wire Nat := do
  let bytes ← take .closed 4
  let declared := (UInt32.ofNat (ofBe bytes)).toInt32.toInt
  if declared < 4 then malformed s!"frame length {declared} is below the 4-byte minimum"
  else if limit < declared.toNat - 4 then fail fun _ => .messageTooLarge (declared.toNat - 4) limit
  else pure (declared.toNat - 4)

def fillBody (length : Nat) : Wire Octets := take .closed length

/-- What a decoder makes of a body. -/
def decode {α : Type} (decoder : Wire α) (body : Octets) : Wire α :=
  match decoder.run ⟨body⟩ with
  | .ok answer => pure answer.1
  | .error error => fail fun _ => error

/-- The untagged packet that opens a connection. -/
def readStartup : Wire StartupRequest := do
  let length ← readLen maxStartupPacketLen
  let body ← fillBody length
  decode StartupRequest.decodeBody body

def readMessage (maxMessageSize : Nat) : Wire WireMessage := do
  let tag ← take .closed 1
  let length ← readLen maxMessageSize
  let body ← fillBody length
  decode (WireMessage.decodeBody (ofBe tag)) body

end Wire
end Ferrite.Protocol
