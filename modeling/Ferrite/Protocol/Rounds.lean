import Ferrite.Protocol.Portals

/-!
# Requests and responses in step

A client that counts `ReadyForQuery` must always know which of its messages was answered
last. Beside the connection stands what the client knows from the frames alone: whether
an error of the extended flow is still waiting for its `Sync`.
-/

namespace Ferrite.Protocol

open Sql Logical Backend Session

namespace Backend

def isReady : Backend → Bool
  | .readyForQuery _ => true
  | _ => false

def isError : Backend → Bool
  | .errorResponse _ _ => true
  | _ => false

end Backend

/-- The call comes back, with a result or with an error. -/
def Outcome.Returns {α : Type} : Outcome α → Prop
  | .answered _ => True
  | .panicked _ => False

structure Exchange.Returns (exchange : Exchange) : Prop where
  describes : exchange.describes.Returns
  runs : exchange.runs.Returns

/-- Whether an error waits for its `Sync` after a message and the frames it led to. A
simple query reports its error without leaving the flow. -/
def brokenAfter (broken : Bool) (message : Message) (frames : List Backend) : Bool :=
  match message with
  | .sync => false
  | .query _ => broken
  | _ => broken || frames.any isError

/-- A message and what became of it; `received` says that the connection was still open,
`broken` that an error was waiting for its `Sync`. -/
structure Round where
  message : Message
  observation : Observation
  received : Bool
  broken : Bool

namespace Round

/-- The messages that are owed a `ReadyForQuery`. -/
def owesReady (round : Round) : Bool :=
  match round.message with
  | .sync => round.received
  | .query _ => round.received && !round.broken
  | _ => false

/-- `Sync` is answered by one `ReadyForQuery`, a query by its responses and then one;
nothing else is answered by any, and while an error waits nothing at all happens. -/
def InStep (round : Round) : Prop :=
  match round.message with
  | .sync => ∃ status, round.observation = ⟨none, [.readyForQuery status]⟩
  | .query _ =>
    if round.broken then round.observation = ⟨none, []⟩
    else ∃ others status, round.observation.frames = others ++ [.readyForQuery status] ∧
      others.any isReady = false
  | _ =>
    if round.broken then round.observation = ⟨none, []⟩
    else round.observation.frames.any isReady = false

end Round

/-- A connection, and whether its client waits for a `Sync` to be answered. -/
structure Paced where
  connection : Connection
  broken : Bool

namespace Paced

def start : Paced := ⟨.new, false⟩

def step (formats : TextFormats) (paced : Paced) (exchange : Exchange) : Round × Paced :=
  let answer := paced.connection.step formats exchange
  (⟨exchange.message, answer.1, !paced.connection.closed, paced.broken⟩,
    ⟨answer.2, brokenAfter paced.broken exchange.message answer.1.frames⟩)

end Paced

/-! ## What a message of the extended flow comes to -/

/-- Frames that neither say `ReadyForQuery` nor report an error. -/
def Quiet (frames : List Backend) : Prop := ∀ frame ∈ frames, frame.isReady = false ∧ frame.isError = false

private theorem quiet_nil : Quiet [] := nofun

private theorem quiet_singleton {frame : Backend} (ready : frame.isReady = false) (error : frame.isError = false) :
    Quiet [frame] := by
  intro other member
  cases List.mem_singleton.mp member
  exact ⟨ready, error⟩

private theorem Quiet.append {first second : List Backend} (quietFirst : Quiet first) (quietSecond : Quiet second) :
    Quiet (first ++ second) := by
  intro frame member
  rcases List.mem_append.mp member with inFirst | inSecond
  · exact quietFirst frame inFirst
  · exact quietSecond frame inSecond

private theorem quiet_rows (rows : List Row) (formats : List Format) :
    Quiet (rows.map fun row => dataRow row formats) := by
  intro frame member
  obtain ⟨row, -, rfl⟩ := List.mem_map.mp member
  exact ⟨rfl, rfl⟩

private theorem Quiet.ready {frames : List Backend} (quiet : Quiet frames) : frames.any isReady = false := by
  rw [List.any_eq_false]
  exact fun frame member => by simp [(quiet frame member).1]

private theorem Quiet.error {frames : List Backend} (quiet : Quiet frames) : frames.any isError = false := by
  rw [List.any_eq_false]
  exact fun frame member => by simp [(quiet frame member).2]

namespace Session

variable (session : Session)

@[simp] theorem skipUntilSync_applyTransaction (result : QueryResult) :
    (session.applyTransaction result).skipUntilSync = session.skipUntilSync := by
  rw [applyTransaction]
  cases result.transaction <;> rfl

@[simp] theorem skipUntilSync_failTransaction : session.failTransaction.skipUntilSync = session.skipUntilSync := by
  rw [failTransaction]
  split <;> rfl

@[simp] theorem skipUntilSync_learnFields (name : String) (fields : List FieldDescription) :
    (session.learnFields name fields).skipUntilSync = session.skipUntilSync := by
  rw [learnFields]
  split
  · split <;> rfl
  · rfl

private theorem quiet_queryFrames (result : QueryResult) : Quiet (queryFrames result) := by
  rw [queryFrames]
  split
  · exact quiet_singleton rfl rfl
  · refine (Quiet.append ?_ (quiet_rows _ _)).append (quiet_singleton rfl rfl)
    split
    · exact quiet_nil
    · exact quiet_singleton rfl rfl

/-- A simple query ends with its one `ReadyForQuery`, failed or not. -/
theorem finishQuery_frames (answer : Except FerriteError QueryResult) :
    (∃ others status, (session.finishQuery answer).1 = others ++ [.readyForQuery status] ∧
      others.any isReady = false) ∧
      (session.finishQuery answer).2.skipUntilSync = session.skipUntilSync := by
  cases answer with
  | error failure =>
    exact ⟨⟨[.errorResponse false (.ferrite failure)], _, rfl, rfl⟩, session.skipUntilSync_failTransaction⟩
  | ok result =>
    exact ⟨⟨queryFrames result, _, rfl, (quiet_queryFrames result).ready⟩,
      session.skipUntilSync_applyTransaction result⟩

private theorem quiet_deliver {name : String} {maxRows : Int} {answer : List Backend × Session}
    (delivered : session.deliver name maxRows = .ok answer) :
    Quiet answer.1 ∧ answer.2.skipUntilSync = session.skipUntilSync := by
  obtain ⟨portal, -, delivered⟩ := bind_eq_ok.mp delivered
  split at delivered
  · cases delivered
    exact ⟨quiet_nil, rfl⟩
  split at delivered
  · cases delivered
    exact ⟨quiet_singleton rfl rfl, rfl⟩
  · obtain ⟨formats, -, delivered⟩ := bind_eq_ok.mp delivered
    dsimp only at delivered
    split at delivered
    · cases delivered
      exact ⟨(quiet_rows _ _).append (quiet_singleton rfl rfl), rfl⟩
    · cases delivered
      exact ⟨(quiet_rows _ _).append (quiet_singleton rfl rfl), rfl⟩

private theorem quiet_describe {kind : TargetKind} {name : String} {frames : List Backend}
    (described : session.describe kind name = .ok frames) : Quiet frames := by
  cases kind with
  | statement =>
    obtain ⟨prepared, -, described⟩ := bind_eq_ok.mp described
    cases described
    refine Quiet.append (quiet_singleton rfl rfl) ?_
    split
    · exact quiet_singleton rfl rfl
    · exact quiet_singleton rfl rfl
  | portal =>
    obtain ⟨portal, -, described⟩ := bind_eq_ok.mp described
    obtain ⟨prepared, -, described⟩ := bind_eq_ok.mp described
    split at described
    · obtain ⟨formats, -, described⟩ := bind_eq_ok.mp described
      cases described
      exact quiet_singleton rfl rfl
    · cases described
      exact quiet_singleton rfl rfl

end Session

namespace Connection

/-- Outside the simple flow a message is answered quietly, or reported and waited for,
or it ends the connection. -/
inductive Settled (conn : Connection) : Observation × Connection → Prop
  | answered {observation : Observation} {next : Connection} (quiet : Quiet observation.frames)
      (reads : next.session.skipUntilSync = conn.session.skipUntilSync) : Settled conn (observation, next)
  | failed {called : Option Request} {error : ProtocolError} {next : Connection}
      (skips : next.session.skipUntilSync = true) : Settled conn (⟨called, [.errorResponse false error]⟩, next)
  | ended {observation : Observation} {next : Connection}
      (silent : observation.frames.any isReady = false) (closed : next.closed = true) :
      Settled conn (observation, next)

variable {formats : TextFormats} {conn : Connection} {exchange : Exchange}

private theorem settled_raise (before raising : Connection) (called : Option Request) (error : ProtocolError) :
    Settled before (raising.raise called error) := by
  rw [raise]
  split
  · refine .failed ?_
    simp [reportError]
  · exact .ended rfl rfl

private theorem settled_finishParse (name : String) (sql : SqlText) (declared : List Int)
    (outcome : Outcome StatementDescription) : Settled conn (conn.finishParse name sql declared outcome) := by
  rw [finishParse.eq_def]
  split
  · exact settled_raise _ _ _ _
  · exact settled_raise _ _ _ _
  · rename_i description
    split
    · exact settled_raise _ _ _ _
    · rename_i answer finished
      rw [Session.finishParse] at finished
      split at finished
      · cases finished
      · cases finished
        exact .answered (quiet_singleton rfl rfl) rfl

private theorem settled_finishExecute (request : Request) (portal : String) (maxRows : Int)
    (outcome : Outcome QueryResult) :
    Settled conn (conn.finishExecute request portal maxRows outcome) := by
  rw [finishExecute.eq_def]
  split
  · exact settled_raise _ _ _ _
  · rename_i result
    split
    · rename_i answer finished
      cases result with
      | error failure => cases finished
      | ok result =>
        simp only [Session.finishExecute] at finished
        split at finished
        · cases finished
        split at finished
        · cases finished
        · rename_i delivered
          cases finished
          obtain ⟨quiet, same⟩ := quiet_deliver _ delivered
          refine .answered quiet (same.trans ?_)
          simp [setPortal]
    · exact settled_raise _ _ _ _

private theorem settled_proceed {result : Except ProtocolError Dispatched}
    (settled : ∀ dispatched, result = .ok dispatched → Settled conn (conn.proceed exchange dispatched)) :
    Settled conn (conn.proceed exchange (Session.raise result)) := by
  cases result with
  | ok dispatched => exact settled dispatched rfl
  | error error => exact settled_raise _ _ _ _

private theorem settled_bind {portal statement : String} {params : Except ProtocolError (List Value)}
    {resultFormats : List Format} {session : Session}
    (bound : conn.session.bind portal statement params resultFormats = .ok session) :
    Settled conn (conn.proceed exchange (.replied [.bindComplete] session)) := by
  obtain ⟨prepared, -, bound⟩ := bind_eq_ok.mp bound
  obtain ⟨decoded, -, bound⟩ := bind_eq_ok.mp bound
  cases bound
  exact .answered (quiet_singleton rfl rfl) rfl

private theorem settled_startExecute {portal : String} {maxRows : Int} {dispatched : Dispatched}
    (started : conn.session.startExecute portal maxRows = .ok dispatched) :
    Settled conn (conn.proceed exchange dispatched) := by
  obtain ⟨found, -, started⟩ := bind_eq_ok.mp started
  split at started
  · obtain ⟨answer, delivered, started⟩ := bind_eq_ok.mp started
    cases started
    obtain ⟨quiet, same⟩ := quiet_deliver _ delivered
    exact .answered quiet same
  · obtain ⟨prepared, -, started⟩ := bind_eq_ok.mp started
    cases started
    exact settled_finishExecute _ _ _ _

/-- A message of the extended flow that is not skipped. -/
theorem settled_step (isOpen : conn.closed = false) (reads : conn.session.skipUntilSync = false)
    (notQuery : ∀ sql, exchange.message ≠ .query sql) (notSync : exchange.message ≠ .sync) :
    Settled conn (conn.step formats exchange) := by
  rw [step_open isOpen]
  cases message : exchange.message with
  | query sql => exact absurd message (notQuery sql)
  | sync => exact absurd message notSync
  | terminate => exact .ended rfl rfl
  | parse name sql declared =>
    rw [frontend, dispatch, reads]
    exact settled_finishParse _ _ _ _
  | bind portal statement paramFormats params resultFormats =>
    rw [frontend, dispatch, reads]
    refine settled_proceed fun dispatched replied => ?_
    obtain ⟨session, bound, replied⟩ := bind_eq_ok.mp replied
    cases replied
    exact settled_bind bound
  | describe kind name =>
    rw [frontend, dispatch, reads]
    refine settled_proceed fun dispatched replied => ?_
    obtain ⟨frames, described, replied⟩ := bind_eq_ok.mp replied
    cases replied
    exact .answered (Session.quiet_describe _ described) rfl
  | execute portal maxRows =>
    rw [frontend, dispatch, reads]
    exact settled_proceed fun dispatched => settled_startExecute
  | close kind name =>
    rw [frontend, dispatch, reads]
    refine .answered (quiet_singleton rfl rfl) ?_
    cases kind <;> rfl
  | flush =>
    have dispatched : conn.session.dispatch .flush = .replied [] conn.session := by simp [dispatch]
    rw [frontend, dispatched]
    exact .answered quiet_nil rfl
  | password =>
    rw [frontend, dispatch, reads]
    exact settled_raise _ _ _ _
  | unsupported tag =>
    rw [frontend, dispatch, reads]
    exact settled_raise _ _ _ _

private theorem step_query {sql : SqlText} (isOpen : conn.closed = false) (reads : conn.session.skipUntilSync = false)
    (returns : exchange.Returns) (message : exchange.message = .query sql) :
    ∃ answer called, conn.step formats exchange =
      (⟨called, (conn.session.finishQuery answer).1⟩, { conn with session := (conn.session.finishQuery answer).2 }) := by
  rw [step_open isOpen, message, frontend, dispatch, reads]
  cases blank : sql.blank with
  | true => exact ⟨.ok .empty, none, rfl⟩
  | false =>
    have runs := returns.runs
    cases outcome : exchange.runs with
    | panicked text =>
      rw [outcome] at runs
      exact runs.elim
    | answered answer =>
      refine ⟨answer, some (.query sql), ?_⟩
      change conn.finishQuery (.query sql) exchange.runs = _
      rw [outcome]
      rfl

private theorem step_skipped (isOpen : conn.closed = false) (skipping : conn.session.skipUntilSync = true)
    (notSync : exchange.message ≠ .sync) (notTerminate : exchange.message ≠ .terminate) :
    conn.step formats exchange = (⟨none, []⟩, conn) := by
  rw [step_open isOpen, dispatch_skipping skipping]
  · rfl
  · cases message : exchange.message <;> first | exact absurd message notSync | exact nofun
  · cases message : exchange.message <;> first | exact absurd message notTerminate | exact nofun

end Connection

/-! ## Rounds -/

namespace Paced

/-- What the client knows is what the session does. -/
def Agrees (paced : Paced) : Prop :=
  paced.connection.closed = true ∨ paced.connection.session.skipUntilSync = paced.broken

variable {formats : TextFormats} {paced : Paced} {exchange : Exchange}

private theorem step_sync (isOpen : paced.connection.closed = false) (message : exchange.message = .sync) :
    (paced.step formats exchange).1.InStep ∧ (paced.step formats exchange).2.Agrees := by
  have taken : paced.connection.step formats exchange =
      (⟨none, [.readyForQuery paced.connection.session.transaction]⟩,
        { paced.connection with session := { paced.connection.session with skipUntilSync := false } }) := by
    rw [Connection.step_open isOpen, message]
    rfl
  simp only [step, taken, Round.InStep, message]
  exact ⟨⟨_, rfl⟩, .inr rfl⟩

private theorem brokenAfter_nil {broken : Bool} {message : Message} (notSync : message ≠ .sync) :
    brokenAfter broken message [] = broken := by
  cases message <;> first | exact absurd rfl notSync | exact Bool.or_false broken | rfl

private theorem step_broken (isOpen : paced.connection.closed = false)
    (agrees : paced.connection.session.skipUntilSync = paced.broken) (broken : paced.broken = true)
    (notSync : exchange.message ≠ .sync) :
    (paced.step formats exchange).1.InStep ∧ (paced.step formats exchange).2.Agrees := by
  have inStep : ∀ received, Round.InStep ⟨exchange.message, ⟨none, []⟩, received, paced.broken⟩ := by
    intro received
    rw [broken]
    cases message : exchange.message <;> first | exact absurd message notSync | rfl
  by_cases ends : exchange.message = .terminate
  · have taken : paced.connection.step formats exchange = (⟨none, []⟩, { paced.connection with closed := true }) := by
      rw [Connection.step_open isOpen, ends]
      rfl
    rw [step, taken]
    exact ⟨inStep _, .inl rfl⟩
  · have taken : paced.connection.step formats exchange = (⟨none, []⟩, paced.connection) :=
      Connection.step_skipped isOpen (agrees.trans broken) notSync ends
    rw [step, taken]
    exact ⟨inStep _, .inr (agrees.trans (brokenAfter_nil notSync).symm)⟩

private theorem step_query {sql : SqlText} (isOpen : paced.connection.closed = false)
    (agrees : paced.connection.session.skipUntilSync = paced.broken) (whole : paced.broken = false)
    (returns : exchange.Returns) (message : exchange.message = .query sql) :
    (paced.step formats exchange).1.InStep ∧ (paced.step formats exchange).2.Agrees := by
  obtain ⟨answer, called, taken⟩ : ∃ answer called, paced.connection.step formats exchange =
      (⟨called, (paced.connection.session.finishQuery answer).1⟩, { paced.connection with
        session := (paced.connection.session.finishQuery answer).2 }) :=
    Connection.step_query isOpen (agrees.trans whole) returns message
  obtain ⟨frames, same⟩ := paced.connection.session.finishQuery_frames answer
  rw [step, taken]
  refine ⟨?_, .inr ?_⟩
  · rw [Round.InStep, message]
    simp only [whole]
    exact frames
  · rw [message]
    exact same.trans agrees

private theorem step_extended (isOpen : paced.connection.closed = false)
    (agrees : paced.connection.session.skipUntilSync = paced.broken) (whole : paced.broken = false)
    (notQuery : ∀ sql, exchange.message ≠ .query sql) (notSync : exchange.message ≠ .sync) :
    (paced.step formats exchange).1.InStep ∧ (paced.step formats exchange).2.Agrees := by
  have settled : (paced.connection).Settled (paced.connection.step formats exchange) :=
    Connection.settled_step isOpen (agrees.trans whole) notQuery notSync
  -- outside the simple flow only the frames decide
  have inStep : ∀ {observation : Observation} received, observation.frames.any isReady = false →
      Round.InStep ⟨exchange.message, observation, received, paced.broken⟩ := by
    intro observation received silent
    rw [whole]
    cases message : exchange.message <;>
      first | exact absurd message (notQuery _) | exact absurd message notSync | exact silent
  have after : ∀ frames, brokenAfter paced.broken exchange.message frames = frames.any isError := by
    intro frames
    rw [whole]
    cases message : exchange.message <;>
      first | exact absurd message (notQuery _) | exact absurd message notSync | exact Bool.false_or _
  rw [step]
  generalize paced.connection.step formats exchange = answer at settled
  cases settled with
  | answered quiet reads =>
    refine ⟨inStep _ quiet.ready, .inr ?_⟩
    exact reads.trans ((agrees.trans whole).trans ((after _).trans quiet.error).symm)
  | @failed called error next skips =>
    have waits : brokenAfter paced.broken exchange.message [.errorResponse false error] = true := after _
    exact ⟨inStep _ rfl, .inr (skips.trans waits.symm)⟩
  | ended silent closed => exact ⟨inStep _ silent, .inl closed⟩

private theorem step_inStep (isOpen : paced.connection.closed = false) (agrees : paced.Agrees)
    (returns : exchange.Returns) :
    (paced.step formats exchange).1.InStep ∧ (paced.step formats exchange).2.Agrees := by
  have same : paced.connection.session.skipUntilSync = paced.broken :=
    agrees.resolve_left (by rw [isOpen]; exact nofun)
  by_cases syncs : exchange.message = .sync
  · exact step_sync isOpen syncs
  cases broken : paced.broken with
  | true => exact step_broken isOpen same broken syncs
  | false =>
    by_cases queries : ∃ sql, exchange.message = .query sql
    · obtain ⟨sql, message⟩ := queries
      exact step_query isOpen same broken returns message
    · exact step_extended isOpen same broken (not_exists.mp queries) syncs

/-- After its end a connection takes and sends nothing. -/
theorem step_closed (closed : paced.connection.closed = true) (formats : TextFormats) (exchange : Exchange) :
    paced.step formats exchange = (⟨exchange.message, ⟨none, []⟩, false, paced.broken⟩,
      ⟨paced.connection, brokenAfter paced.broken exchange.message []⟩) := by
  have taken : paced.connection.step formats exchange = (⟨none, []⟩, paced.connection) := if_pos closed
  rw [step, taken, closed]
  rfl

end Paced

namespace Round

/-- How many `ReadyForQuery` a message led to. -/
def readies (round : Round) : Nat := round.observation.frames.countP isReady

private theorem countP_eq_zero {frames : List Backend} (silent : frames.any isReady = false) :
    frames.countP isReady = 0 := by
  rw [List.countP_eq_zero]
  exact fun frame member => by simpa using List.any_eq_false.mp silent frame member

private theorem InStep.readies_eq {round : Round} (inStep : round.InStep) (received : round.received = true) :
    round.readies = if round.owesReady then 1 else 0 := by
  obtain ⟨message, observation, open_, broken⟩ := round
  cases received
  cases message with
  | sync =>
    obtain ⟨status, rfl⟩ := inStep
    rfl
  | query sql =>
    cases broken with
    | true =>
      cases inStep
      rfl
    | false =>
      obtain ⟨others, status, frames, silent⟩ := inStep
      change observation.frames.countP isReady = 1
      rw [frames, List.countP_append, countP_eq_zero silent]
      rfl
  | _ =>
    cases broken with
    | true =>
      cases inStep
      rfl
    | false => exact countP_eq_zero inStep

end Round

namespace Paced

variable {formats : TextFormats}

private theorem step_round {paced : Paced} {exchange : Exchange} (agrees : paced.Agrees) (returns : exchange.Returns) :
    ((paced.step formats exchange).1.received = true → (paced.step formats exchange).1.InStep) ∧
      (paced.step formats exchange).1.readies = (if (paced.step formats exchange).1.owesReady then 1 else 0) ∧
      (paced.step formats exchange).2.Agrees := by
  cases closed : paced.connection.closed with
  | true =>
    rw [step_closed closed]
    refine ⟨nofun, ?_, .inl closed⟩
    cases exchange.message <;> rfl
  | false =>
    obtain ⟨inStep, next⟩ : (paced.step formats exchange).1.InStep ∧ (paced.step formats exchange).2.Agrees :=
      step_inStep closed agrees returns
    have received : (paced.step formats exchange).1.received = true := by
      rw [step, closed]
      rfl
    exact ⟨fun _ => inStep, inStep.readies_eq received, next⟩

private theorem run_rounds {exchanges : List Exchange} {paced : Paced} (agrees : paced.Agrees)
    (returns : ∀ exchange ∈ exchanges, exchange.Returns) :
    (∀ round ∈ (Machine.run (step formats) paced exchanges).1, round.received = true → round.InStep) ∧
      ((Machine.run (step formats) paced exchanges).1.flatMap fun round => round.observation.frames).countP
        isReady = (Machine.run (step formats) paced exchanges).1.countP Round.owesReady := by
  induction exchanges generalizing paced with
  | nil => exact ⟨nofun, rfl⟩
  | cons exchange rest ih =>
    obtain ⟨inStep, readies, next⟩ : _ ∧ _ ∧ (paced.step formats exchange).2.Agrees :=
      step_round agrees (returns exchange List.mem_cons_self)
    obtain ⟨restInStep, restReadies⟩ := ih next fun other member => returns other (List.mem_cons_of_mem _ member)
    rw [Machine.run_cons]
    refine ⟨fun round member => ?_, ?_⟩
    · rcases List.mem_cons.mp member with rfl | later
      · exact inStep
      · exact restInStep round later
    · rw [List.flatMap_cons, List.countP_append, List.countP_cons, restReadies, Nat.add_comm]
      exact congrArg _ readies

end Paced

/-- Requests and responses stay in step over every sequence of messages and every handler
that returns: each message is answered as it should be, and there are as many
`ReadyForQuery` as messages that are owed one. -/
theorem responses_stay_in_step (formats : TextFormats) (exchanges : List Exchange)
    (returns : ∀ exchange ∈ exchanges, exchange.Returns) :
    (∀ round ∈ (Machine.run (Paced.step formats) Paced.start exchanges).1, round.received = true → round.InStep) ∧
      ((Machine.run (Paced.step formats) Paced.start exchanges).1.flatMap fun round => round.observation.frames).countP
        isReady = (Machine.run (Paced.step formats) Paced.start exchanges).1.countP Round.owesReady :=
  Paced.run_rounds (.inr rfl) returns

/-- A portal that does not exist, a query that is skipped for it, a `Sync` and a query. -/
def strayExecute : List Exchange :=
  [.execute "p" 0, .query ⟨true, 0, fun _ => .ok []⟩, .sync, .query ⟨true, 0, fun _ => .ok []⟩].map fun message =>
    ⟨message, .answered (.ok ⟨[], none⟩), .answered (.ok .empty)⟩

theorem stray_execute_is_waited_for :
    (∀ round ∈ (Machine.run (Paced.step .decimal) Paced.start strayExecute).1, round.received = true → round.InStep) ∧
      ((Machine.run (Paced.step .decimal) Paced.start strayExecute).1.flatMap fun round =>
        round.observation.frames).countP isReady =
          (Machine.run (Paced.step .decimal) Paced.start strayExecute).1.countP Round.owesReady := by
  refine responses_stay_in_step .decimal strayExecute fun exchange member => ?_
  obtain ⟨message, -, rfl⟩ := List.mem_map.mp member
  exact ⟨trivial, trivial⟩

end Ferrite.Protocol
