import Ferrite.Protocol.Handshake

/-!
# Passwords and TLS

On a listener that requires TLS, nothing about a password happens on the socket itself:
it is not asked for, not read and not verified before a TLS accept has returned a stream.
What is done on that stream is a function of the stream alone. The bytes read before the
accept are gone with the packets they made up, and all that follow them on the socket are
the acceptor's.
-/

namespace Ferrite.Protocol

open Logical Process Talk

/-- Asking for a password, reading one, or having one verified. -/
def Deed.OfPassword : Deed → Prop
  | .wrote frame => frame = .authenticationCleartextPassword
  | .readMessage message => ∃ raw, message = .password raw
  | .calledAuthenticator _ _ _ => True
  | .readStartup _ | .completedAccept => False

/-! ## Staying on one stream -/

/-- Only deeds of a kind, all on the channel the line is on, which stays what it is and is
read from front to back. -/
def onChannel (kind : Deed → Prop) : Conduct Line (Channel × Deed) where
  moves before after := after.channel = before.channel ∧ after.input ≤ before.input
  does line entry := entry.1 = line.channel ∧ kind entry.2
  moves_refl _ := ⟨rfl, le_refl _⟩
  moves_trans first second := ⟨second.1.trans first.1, le_trans second.2 first.2⟩
  does_of_moves moved done := ⟨done.1.trans moved.1, done.2⟩

namespace Talk

variable {kind : Deed → Prop}

private theorem keepsTo_note {deed : Deed} (own : kind deed) : KeepsTo (onChannel kind) (note deed) := by
  intro line
  refine ⟨fun entry done => ?_, (onChannel kind).moves_refl line⟩
  rw [List.mem_singleton.mp done]
  exact ⟨rfl, own⟩

private theorem keepsTo_wait : KeepsTo (onChannel kind) wait := by
  intro line
  rw [wait]
  split <;> exact ⟨nofun, rfl, le_refl _⟩

private theorem keepsTo_receive {α : Type} (reader : Wire α) : KeepsTo (onChannel kind) (receive reader) := by
  refine keepsTo_wait.bind fun _ line => ?_
  rw [take]
  split
  · rename_i answer ran
    exact ⟨nofun, rfl, reader.le_of_run ran⟩
  · exact ⟨nofun, rfl, le_refl _⟩

private theorem keepsTo_write {frame : OpeningFrame} (own : kind (.wrote frame)) : KeepsTo (onChannel kind)
    (write frame) :=
  (keepsTo_note own).bind fun _ => keepsTo_wait

private theorem keepsTo_readStartup (own : ∀ request, kind (.readStartup request)) : KeepsTo
    (onChannel kind) readStartup :=
  (keepsTo_receive _).bind fun request => (keepsTo_note (own request)).bind fun _ => keepsTo_pure _

private theorem keepsTo_readMessage {maxMessageSize : Nat} (own : ∀ message, kind (.readMessage message)) :
    KeepsTo (onChannel kind) (readMessage maxMessageSize) :=
  (keepsTo_receive _).bind fun message => (keepsTo_note (own message)).bind fun _ => keepsTo_pure _

end Talk

section

variable {config : ServerConfig} {debug : String → String} {message : WireError → String} {rounds : Nat}
  {peer : Option IpAddr}

/-! ## Negotiation -/

variable {acceptor : Octets → Except String Octets} {serve : Talk Unit} {input : Octets}

/-- Negotiation has nothing to do with passwords. -/
theorem keepsTo_negotiate (encrypted : Bool) :
    KeepsTo (onChannel fun deed => ¬deed.OfPassword) (negotiate config encrypted) := by
  rw [negotiate]
  generalize 3 = rounds
  induction rounds with
  | zero => exact keepsTo_fail _
  | succ rounds ih =>
    refine (keepsTo_readStartup fun _ => nofun).bind fun request => ?_
    cases request with
    | sslRequest =>
      dsimp only
      split
      · exact keepsTo_fail _
      · split
        · exact keepsTo_pure _
        · exact (keepsTo_write nofun).bind fun _ => ih
    | gssEncRequest => exact (keepsTo_write nofun).bind fun _ => ih
    | cancel processId secretKey => exact keepsTo_pure _
    | startup params =>
      dsimp only
      split
      · exact (keepsTo_write nofun).bind fun _ => keepsTo_fail _
      · exact keepsTo_pure _

/-- A listener that requires TLS lets no session start on the socket. -/
theorem negotiate_plain_ne_startup (required : config.tls.isRequired = true) :
    Yields (fun negotiated => ∀ params, negotiated ≠ .startup params) (negotiate config false) := by
  rw [negotiate]
  generalize 3 = rounds
  induction rounds with
  | zero => exact yields_fail _
  | succ rounds ih =>
    refine yields_bind fun request => ?_
    cases request with
    | sslRequest =>
      dsimp only
      rw [if_neg Bool.false_ne_true, if_pos required]
      exact yields_pure nofun
    | gssEncRequest => exact yields_bind fun _ => ih
    | cancel processId secretKey => exact yields_pure nofun
    | startup params =>
      dsimp only
      rw [if_pos (by rw [required]; rfl)]
      exact yields_bind fun _ => yields_fail _

/-! ## Sessions -/

private theorem keepsTo_authenticate (params : StartupParams) :
    KeepsTo (onChannel fun _ => True) (authenticate config peer params) := by
  have slowly : ∀ error, KeepsTo (onChannel fun _ => True) (failSlowly error : Talk AuthOutcome) :=
    fun error => keepsTo_wait.bind fun _ => keepsTo_fail _
  rw [authenticate]
  split
  · refine (keepsTo_write trivial).bind fun _ => ?_
    refine (keepsTo_readMessage fun _ => trivial).bind fun received => ?_
    split
    · refine (keepsTo_note trivial).bind fun _ => keepsTo_wait.bind fun _ => ?_
      split
      · exact slowly _
      · split
        · exact keepsTo_pure _
        · exact slowly _
    · exact keepsTo_fail _
    · exact keepsTo_fail _
  · exact keepsTo_fail _

private theorem keepsTo_reportFatal (error : WireError) : KeepsTo (onChannel fun _ => True)
    (reportFatal message error) := by
  cases error with
  | closed | io reason => exact keepsTo_pure _
  | _ => exact (keepsTo_write trivial).attempt.bind fun _ => keepsTo_pure _

private theorem keepsTo_runMessages (seen : List WireMessage) :
    KeepsTo (onChannel fun _ => True) (runMessages config message rounds seen) := by
  induction rounds generalizing seen with
  | zero => exact keepsTo_pure _
  | succ rounds ih =>
    refine (keepsTo_readMessage fun _ => trivial).attempt.bind fun received => ?_
    split
    · exact keepsTo_pure _
    · exact (keepsTo_reportFatal _).bind fun _ => keepsTo_fail _
    · exact keepsTo_pure _
    · split
      · exact ih _
      · exact keepsTo_pure _
      · split
        · exact (keepsTo_write trivial).bind fun _ => ih _
        · exact (keepsTo_reportFatal _).bind fun _ => keepsTo_fail _

private theorem keepsTo_writeAll (frames : List OpeningFrame) : KeepsTo (onChannel fun _ => True) (writeAll frames)
    := by
  induction frames with
  | nil => exact keepsTo_pure _
  | cons frame frames ih => exact (keepsTo_write trivial).bind fun _ => ih

private theorem keepsTo_runSession (params : StartupParams) :
    KeepsTo (onChannel fun _ => True) (runSession config debug message rounds peer params) := by
  refine (keepsTo_authenticate params).attempt.bind fun outcome => ?_
  cases outcome with
  | error error => exact (keepsTo_write trivial).attempt.bind fun _ => keepsTo_fail _
  | ok outcome => exact (keepsTo_writeAll _).bind fun _ => keepsTo_runMessages _

/-- A session stays on the stream it was started on. -/
theorem keepsTo_serveEncrypted :
    KeepsTo (onChannel fun _ => True) (serveEncrypted config debug message rounds peer) := by
  have negotiates : KeepsTo (onChannel fun _ => True) (negotiate config true) := by
    intro line
    obtain ⟨done, moved⟩ := @keepsTo_negotiate config true line
    exact ⟨fun entry member => ⟨(done entry member).1, trivial⟩, moved⟩
  refine negotiates.bind fun negotiated => ?_
  cases negotiated with
  | startup params => exact keepsTo_runSession params
  | upgradeTls => exact keepsTo_fail _
  | closed => exact keepsTo_pure _

/-! ## The hand-over -/

/-- What a connection may come to, with an acceptor and a way to serve the stream it
returns: it stays on the socket, without a password, or it leaves the socket for that
stream, and then the stream is all that matters. -/
inductive Guarded (acceptor : Octets → Except String Octets) (serve : Talk Unit) (input : Octets) :
    List (Channel × Deed) → Prop where
  | inTheClear {said : List (Channel × Deed)}
      (harmless : ∀ entry ∈ said, entry.1 = .plain ∧ ¬entry.2.OfPassword) :
      Guarded acceptor serve input said
  | upgraded {before : List (Channel × Deed)} {used rest stream : Octets} {faults : List (Option String)}
      (harmless : ∀ entry ∈ before, entry.1 = .plain ∧ ¬entry.2.OfPassword)
      (split : input = used ++ rest) (completed : acceptor rest = .ok stream) :
      Guarded acceptor serve input (before ++ (.plain, .completedAccept) :: (serve ⟨.tls, ⟨stream⟩, faults⟩).events)

/-- A deed on a guarded connection that has to do with a password is done on the stream. -/
theorem Guarded.on_tls {said : List (Channel × Deed)} (guarded : Guarded acceptor serve input said)
    (stays : KeepsTo (onChannel fun _ => True) serve) : ∀ entry ∈ said, entry.2.OfPassword → entry.1 = .tls := by
  intro entry done ofPassword
  cases guarded with
  | inTheClear harmless => exact absurd ofPassword (harmless entry done).2
  | upgraded harmless split completed =>
    obtain early | late := List.mem_append.mp done
    · exact absurd ofPassword (harmless entry early).2
    · obtain rfl | later := List.mem_cons.mp late
      · exact ofPassword.elim
      · exact ((stays _).1 entry later).1

private theorem wait_cases (line : Line) :
    (∃ reason faults, wait line = ⟨[], .error (.io reason), { line with faults := faults }⟩) ∨
      ∃ faults, wait line = ⟨[], .ok (), { line with faults := faults }⟩ := by
  rw [wait]
  split
  · exact .inl ⟨_, _, rfl⟩
  · exact .inr ⟨_, rfl⟩
  · exact .inr ⟨line.faults, rfl⟩

/-- An accept fails without a trace, or completes and leaves the socket behind. -/
theorem accept_cases (acceptor : Octets → Except String Octets) (line : Line) :
    (∃ error, (accept acceptor line).events = [] ∧ (accept acceptor line).result = .error error) ∨
      ∃ stream faults, acceptor line.input.rest = .ok stream ∧ accept acceptor line =
          ⟨[(line.channel, .completedAccept)], .ok (), ⟨.tls, ⟨stream⟩, faults⟩⟩ := by
  obtain ⟨reason, faults, stopped⟩ | ⟨faults, waited⟩ := wait_cases line
  · left
    rw [accept, bind_of_error (by rw [stopped]), stopped]
    exact ⟨_, rfl, rfl⟩
  · have handed : accept acceptor line = handOver acceptor { line with faults := faults } := by
      rw [accept, bind_of_ok (by rw [waited]), waited]
      rfl
    rw [handed, handOver]
    cases accepted : acceptor line.input.rest with
    | error reason => exact .inl ⟨_, rfl, rfl⟩
    | ok stream => exact .inr ⟨stream, faults, rfl, rfl⟩

/-- From the socket to the stream: the answer to the client's request, the accept, and
what is served then. -/
theorem guarded_upgrade {line : Line} (onSocket : line.channel = .plain) (left : line.input.rest <:+ input)
    {before : List (Channel × Deed)} (harmless : ∀ entry ∈ before, entry.1 = .plain ∧ ¬entry.2.OfPassword) :
    Guarded acceptor serve input (before ++
      ((do
        write (.sslAnswer true)
        accept acceptor
        serve : Talk Unit) line).events) := by
  have answers : KeepsTo (onChannel fun deed => ¬deed.OfPassword) (write (.sslAnswer true)) :=
    keepsTo_write nofun
  obtain ⟨answered, sameChannel, readOn⟩ := answers line
  have harmlessAnswer : ∀ entry ∈ before ++ (write (.sslAnswer true) line).events,
      entry.1 = .plain ∧ ¬entry.2.OfPassword := by
    intro entry done
    obtain early | late := List.mem_append.mp done
    · exact harmless entry early
    · exact ⟨(answered entry late).1.trans onSocket, (answered entry late).2⟩
  cases wrote : (write (.sslAnswer true) line).result with
  | error error =>
    rw [bind_of_error wrote]
    exact .inTheClear harmlessAnswer
  | ok value =>
    rw [bind_of_ok wrote, ← List.append_assoc]
    obtain ⟨error, silent, failed⟩ | ⟨stream, faults, completed, accepted⟩ :=
      accept_cases acceptor (write (.sslAnswer true) line).state
    · rw [bind_of_error failed, silent, List.append_nil]
      exact .inTheClear harmlessAnswer
    · obtain ⟨used, split⟩ := readOn.trans left
      rw [bind_of_ok (by rw [accepted]), accepted, sameChannel, onSocket]
      exact .upgraded harmlessAnswer split.symm completed

private theorem guarded_serveConnectionFrom (required : config.tls = .required acceptor) (input : Octets)
    (faults : List (Option String)) : Guarded acceptor (serveEncrypted config debug message rounds peer) input
      (serveConnectionFrom config debug message rounds peer ⟨.plain, ⟨input⟩, faults⟩).events := by
  have isRequired : config.tls.isRequired = true := by rw [required]; rfl
  obtain ⟨harmless, onSocket, left⟩ := @keepsTo_negotiate config false ⟨.plain, ⟨input⟩, faults⟩
  rw [serveConnectionFrom]
  cases negotiated : (negotiate config false ⟨.plain, ⟨input⟩, faults⟩).result with
  | error error =>
    rw [bind_of_error negotiated]
    exact .inTheClear harmless
  | ok outcome =>
    rw [bind_of_ok negotiated]
    cases outcome with
    | startup params => exact absurd rfl (negotiate_plain_ne_startup isRequired _ _ negotiated params)
    | closed =>
      exact .inTheClear fun entry done =>
        harmless entry ((List.mem_append.mp done).resolve_right List.not_mem_nil)
    | upgradeTls =>
      have acceptorIs : config.tls.acceptor = some acceptor := by rw [required]; rfl
      rw [acceptorIs]
      exact guarded_upgrade onSocket left harmless

/-- If TLS is required, every sequence of bytes and every failing step leads to a guarded
connection: what has to do with a password is done on a stream that a completed accept
has returned, and what is done there depends on that stream only, which is what the
acceptor makes of the bytes after those read before it. -/
theorem no_password_in_the_clear (config : ServerConfig) (required : config.tls.isRequired = true)
    (debug : String → String) (message : WireError → String) (rounds : Nat) (peer : Option IpAddr)
    (input : Octets) (faults : List (Option String)) : ∃ acceptor, config.tls.acceptor = some acceptor ∧
      Guarded acceptor (serveEncrypted config debug message rounds peer) input
        (serveConnectionFrom config debug message rounds peer ⟨.plain, ⟨input⟩, faults⟩).events ∧
      ∀ entry ∈ (serveConnectionFrom config debug message rounds peer ⟨.plain, ⟨input⟩, faults⟩).events,
        entry.2.OfPassword → entry.1 = .tls := by
  cases mode : config.tls with
  | disabled =>
    rw [mode] at required
    cases required
  | required acceptor =>
    have guarded := @guarded_serveConnectionFrom config debug message rounds peer acceptor mode input faults
    exact ⟨acceptor, rfl, guarded, guarded.on_tls keepsTo_serveEncrypted⟩

end

/-! ## A connection that logs in -/

/-- A listener whose acceptor takes one byte for its handshake. -/
def oneByteHandshake : ServerConfig where
  tls := .required fun raw => if raw = [] then .error "handshake eof" else .ok raw.tail
  authenticator user _ password :=
    if password = [115] then .ok ⟨0, ⟨"reader", [.connect]⟩⟩ else .error (.authFailed user)
  throttleAdmits _ _ := true
  dispatch _ := .ok ()
  maxMessageSize := 1000
  serverVersion := "16.0"
  backendKey := (1, 2)

/-- A request for TLS, the handshake, a startup packet for user `u`, and the password `s`. -/
def loginBytes : Octets :=
  [0, 0, 0, 8, 4, 210, 22, 47] ++ [22] ++ [0, 0, 0, 16, 0, 3, 0, 0, 117, 115, 101, 114, 0, 117, 0, 0] ++
    [112, 0, 0, 0, 6, 115, 0]

theorem login_is_guarded : oneByteHandshake.tls.isRequired = true ∧
      (Channel.tls, Deed.calledAuthenticator "u" "u" [115]) ∈
        (serveConnectionFrom oneByteHandshake id (fun _ => "") 1 none ⟨.plain, ⟨loginBytes⟩, []⟩).events ∧
      ∀ entry ∈ (serveConnectionFrom oneByteHandshake id (fun _ => "") 1 none ⟨.plain, ⟨loginBytes⟩, []⟩).events,
        entry.2.OfPassword → entry.1 = .tls := by
  refine ⟨rfl, by decide +kernel, ?_⟩
  obtain ⟨_, _, _, onTls⟩ := no_password_in_the_clear oneByteHandshake rfl id (fun _ => "") 1 none loginBytes []
  exact onTls

end Ferrite.Protocol
