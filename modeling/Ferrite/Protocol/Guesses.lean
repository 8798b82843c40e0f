import Ferrite.Protocol.Lockout

/-!
# Concurrent authentication

Any number of connections authenticate at the same time (`authenticate` in
`ferrite-protocol/src/session.rs`) and share the throttle. The check, the arrival of the
password, its verification and the record of the outcome are separate steps, and the
steps of different runs interleave. The verdict on a password comes with the step.
-/

namespace Ferrite.Protocol

open Logical Entry AuthThrottle

/-- How far a run of `authenticate` has come. -/
inductive AuthPhase where
  | started
  | prompted
  | received
  | denied
  | accepted
  | finished
deriving DecidableEq

/-- One run of `authenticate`. -/
structure Attempt where
  address : Option IpAddr
  user : String
  phase : AuthPhase

/-- What a run does next. -/
inductive AuthAction where
  | start (address : Option IpAddr) (user : String)
  | check
  | receive (password : Bool)
  | verify (accepted : Bool)
  | record

structure AuthEvent where
  time : Nat
  run : Nat
  action : AuthAction

/-- The throttle and the runs that share it. -/
structure AuthSystem where
  throttle : AuthThrottle
  attempts : Nat → Option Attempt

/-- A failed verification, with its time and user. -/
structure Denial where
  time : Nat
  user : String
deriving DecidableEq

namespace AuthSystem

def init (throttle : AuthThrottle) : AuthSystem := ⟨throttle, fun _ => none⟩

def set (system : AuthSystem) (run : Nat) (attempt : Attempt) : AuthSystem :=
  { system with attempts := Function.update system.attempts run (some attempt) }

/-- A locked-out source is refused before it is asked for a password. -/
def check (system : AuthSystem) (time run : Nat) (attempt : Attempt) : AuthSystem :=
  let checked := system.throttle.check time attempt.address attempt.user
  match checked.1 with
  | .ok _ => { system with throttle := checked.2 }.set run { attempt with phase := .prompted }
  | .error _ => { system with throttle := checked.2 }.set run { attempt with phase := .finished }

/-- One step of one run; a step the run is not ready for does nothing. -/
def step (system : AuthSystem) (event : AuthEvent) : Option Denial × AuthSystem :=
  match system.attempts event.run, event.action with
  | none, .start address user => (none, system.set event.run ⟨address, user, .started⟩)
  | some attempt, action =>
    match attempt.phase, action with
    | .started, .check => (none, system.check event.time event.run attempt)
    | .prompted, .receive password =>
      (none, system.set event.run { attempt with phase := if password then .received else .finished })
    | .received, .verify true => (none, system.set event.run { attempt with phase := .accepted })
    | .received, .verify false =>
      (some ⟨event.time, attempt.user⟩, system.set event.run { attempt with phase := .denied })
    | .denied, .record =>
      (none, { system with
        throttle := (system.throttle.recordFailure event.time attempt.address attempt.user).2 }.set event.run
          { attempt with phase := .finished })
    | .accepted, .record =>
      (none, { system with throttle := system.throttle.recordSuccess attempt.address attempt.user }.set event.run
        { attempt with phase := .finished })
    | _, _ => (none, system)
  | none, _ => (none, system)

/-- The failed verifications of a user in an interval. -/
def denials (system : AuthSystem) (events : List AuthEvent) (user : String) (first last : Nat) : Nat :=
  ((Machine.run step system events).1.filterMap id).countP fun denial =>
    denial.user == user && decide (first ≤ denial.time) && decide (denial.time ≤ last)

end AuthSystem

/-- The run is for the user and in one of some phases. -/
def AuthSystem.Stands (system : AuthSystem) (user : String) (phases : List AuthPhase) (run : Nat) : Prop :=
  ∃ attempt, system.attempts run = some attempt ∧ attempt.user = user ∧ attempt.phase ∈ phases

/-- The run is for the user, past its check and not yet recorded. -/
def AuthSystem.InFlight (system : AuthSystem) (user : String) (run : Nat) : Prop :=
  system.Stands user [.prompted, .received, .denied] run

/-- The user never logs in, every failure of the user finds an entry or room for one, and
no run for the user is checked while another one is in flight. -/
structure Serial (policy : ThrottlePolicy) (user : String) (system : AuthSystem) (event : AuthEvent) : Prop where
  noSuccess : ∀ attempt, system.attempts event.run = some attempt → attempt.user = user → event.action ≠ .verify true
  room : ∀ attempt, system.attempts event.run = some attempt → attempt.user = user → attempt.phase = .denied →
    event.action = .record → system.throttle.Admits policy event.time attempt.address user
  alone : ∀ attempt, system.attempts event.run = some attempt → attempt.user = user → attempt.phase = .started →
    event.action = .check → ∀ other, ¬ system.InFlight user other

/-! ## The tracker between two records of a user -/

namespace AuthThrottle

/-- The failures of a user since a time, as far as the tracker has them. -/
def known (throttle : AuthThrottle) (user : String) (since : Nat) : Nat :=
  match throttle.ofUser user with
  | some entry => failuresSince since entry
  | none => 0

/-- A call forgets no failure that the window still covers, no lock that is not over, and
locks nobody. -/
structure Remembers (policy : ThrottlePolicy) (user : String) (now : Nat) (before after : AuthThrottle) : Prop where
  known : ∀ since, since ≤ now → now < since + policy.window → before.known user since ≤ after.known user since
  locked : ∀ until_, before.mark user = some until_ → now < until_ → after.mark user = some until_
  unlocked : before.mark user = none → after.mark user = none

variable {policy : ThrottlePolicy} {throttle : AuthThrottle} {user other : String} {now : Nat}

private theorem Remembers.of_eq {before after : AuthThrottle} (same : after.ofUser user = before.ofUser user) :
    Remembers policy user now before after where
  known since _ _ := by
    have unchanged : before.known user since = after.known user since := by
      rw [AuthThrottle.known, AuthThrottle.known, same]
    exact Nat.le_of_eq unchanged
  locked until_ held _ := by
    rw [mark, same]
    exact held
  unlocked held := by
    rw [mark, same]
    exact held

private theorem remembers_check (enabled : throttle.policy = some policy) (address : Option IpAddr) :
    Remembers policy user now throttle (throttle.check now address other).2 := by
  have found := ofUser_check enabled now address other user
  by_cases same : user = other
  · rw [if_pos same] at found
    cases before : throttle.ofUser user with
    | none =>
      rw [before] at found
      exact .of_eq (found.trans before.symm)
    | some entry =>
      rw [before] at found
      refine ⟨fun since past covered => ?_, fun until_ locked notOver => ?_, fun unlocked => ?_⟩
      · rw [known, known, before, found]
        simp only [Option.map_some, failuresSince, failures_settle]
        exact Nat.le_of_eq (countP_prune past covered).symm
      · rw [mark, before] at locked
        rw [mark, found, Option.map_some, Option.bind_some, lockedUntil_settle]
        change entry.lockedUntil = some until_ at locked
        rw [locked, Option.filter_some]
        exact if_pos (decide_eq_true notOver)
      · rw [mark, before] at unlocked
        rw [mark, found, Option.map_some, Option.bind_some, lockedUntil_settle]
        change entry.lockedUntil = none at unlocked
        rw [unlocked]
        rfl
  · rw [if_neg same] at found
    exact .of_eq found

private theorem remembers_recordSuccess (different : user ≠ other) (address : Option IpAddr) :
    Remembers policy user now throttle (throttle.recordSuccess address other) :=
  .of_eq (ofUser_recordSuccess throttle address different)

/-- A sweep forgets nothing that matters. -/
theorem remembers_swept {after : AuthThrottle} (swept : after.ofUser user = throttle.swept policy now user) :
    Remembers policy user now throttle after := by
  rcases throttle.swept_eq policy now user with same | dropped
  · exact .of_eq (swept.trans same)
  · cases before : throttle.ofUser user with
    | none =>
      rw [before] at dropped
      exact .of_eq (swept.trans (dropped.trans before.symm))
    | some entry =>
      rw [before] at dropped
      have found := swept.trans dropped
      rw [Option.bind_some] at found
      refine ⟨fun since past covered => ?_, fun until_ locked notOver => ?_, fun unlocked => ?_⟩
      · rw [known, known, before]
        simp only
        rcases Nat.eq_zero_or_pos (failuresSince since entry) with zero | failed
        · rw [zero]
          exact Nat.zero_le _
        · rw [found, sweep_of_failuresSince past covered failed]
          exact Nat.le_of_eq (failuresSince_prune past covered).symm
      · rw [mark, before] at locked
        rw [mark, found, sweep_of_locked locked notOver]
        exact locked
      · rw [mark, before] at unlocked
        rw [mark, found]
        cases kept : entry.sweep policy now with
        | none => rfl
        | some left =>
          rw [sweep_eq_some kept]
          exact unlocked

private theorem remembers_recordFailure (enabled : throttle.policy = some policy) (different : user ≠ other)
    (address : Option IpAddr) : Remembers policy user now throttle (throttle.recordFailure now address other).2 :=
  remembers_swept ((ofUser_recordFailure enabled now address other user).trans (if_neg different))

/-- A user who gets through is not locked. -/
theorem mark_of_check_ok {address : Option IpAddr} (enabled : throttle.policy = some policy)
    (passed : (throttle.check now address user).1 = .ok ()) : (throttle.check now address user).2.mark user = none := by
  rw [mark, ofUser_check enabled, if_pos rfl]
  cases before : throttle.ofUser user with
  | none => rfl
  | some entry =>
    rw [Option.map_some, Option.bind_some, lockedUntil_settle]
    cases locked : entry.lockedUntil with
    | none => rfl
    | some until_ =>
      rw [Option.filter_some]
      refine if_neg fun notOver => ?_
      obtain ⟨remaining, refused⟩ := check_refused enabled before
        (remaining_pos locked (of_decide_eq_true notOver)) address
      rw [passed] at refused
      cases refused

/-- A user who gets through is past every lock. -/
theorem over_of_check_ok {address : Option IpAddr} {until_ : Nat} (enabled : throttle.policy = some policy)
    (passed : (throttle.check now address user).1 = .ok ()) (locked : throttle.mark user = some until_) :
    until_ ≤ now := by
  obtain ⟨entry, found, lockedUntil⟩ := Option.bind_eq_some_iff.mp locked
  by_contra notOver
  obtain ⟨remaining, refused⟩ := check_refused enabled found
    (remaining_pos lockedUntil (Nat.lt_of_not_le notOver)) address
  rw [passed] at refused
  cases refused

/-- A failure of an unmarked user is counted, and sets the lock if it completes the count. -/
theorem recordFailure_unmarked {address : Option IpAddr} (enabled : throttle.policy = some policy)
    (admits : throttle.Admits policy now address user) (unmarked : throttle.mark user = none) :
    (∀ since, since ≤ now → now < since + policy.window →
      throttle.known user since + 1 ≤ (throttle.recordFailure now address user).2.known user since) ∧
    ((∃ since, policy.maxFailures ≤ (throttle.recordFailure now address user).2.known user since) →
      (throttle.recordFailure now address user).2.mark user = some (now + policy.lockout)) := by
  have found := ofUser_recordFailure enabled now address user user
  rw [if_pos rfl, if_pos admits] at found
  have start : ((throttle.swept policy now user).getD (fresh now)).lockedUntil = none :=
    start_unlocked unmarked now
  refine ⟨fun since past covered => ?_, fun ⟨since, enough⟩ => ?_⟩
  · rw [known, known, found]
    simp only
    rw [failuresSince_fail past covered]
    refine Nat.add_le_add_right ?_ 1
    have kept : Remembers policy user now throttle
        ⟨throttle.policy, sweepIfFull policy now throttle.state⟩ := remembers_swept rfl
    have enough := kept.known since past covered
    rw [known, known] at enough
    refine Nat.le_trans enough ?_
    change (match throttle.swept policy now user with
      | some entry => failuresSince since entry
      | none => 0) ≤ _
    cases throttle.swept policy now user with
    | none => exact Nat.zero_le _
    | some entry => exact Nat.le_refl _
  · rw [known, found] at enough
    rw [mark, found, Option.bind_some, lockedUntil_fail start]
    exact if_pos (Nat.le_trans enough (failuresSince_le_length _ _))

end AuthThrottle

/-! ## The account of a user -/

/-- How many of some times are not before a given one. -/
def countSince (since : Nat) (times : List Nat) : Nat := times.countP fun at_ => decide (since ≤ at_)

private theorem countSince_append (since : Nat) (times : List Nat) (time : Nat) :
    countSince since (times ++ [time]) = countSince since times + if since ≤ time then 1 else 0 := by
  rw [countSince, List.countP_append, List.countP_singleton]
  simp only [decide_eq_true_eq]
  rfl

private theorem countSince_eq_zero {since now : Nat} {times : List Nat} (past : ∀ time ∈ times, time ≤ now)
    (after : now < since) :
    countSince since times = 0 := by
  rw [countSince, List.countP_eq_zero]
  intro time member
  have := past time member
  simpa using (by omega : time < since)

/-- What holds of the tracker and the runs of a user while they come one at a time:
`denied` are the times of the failed verifications so far, `recorded` those of the records
of them. -/
structure Accounted (policy : ThrottlePolicy) (user : String) (now : Nat) (system : AuthSystem)
    (denied recorded : List Nat) : Prop where
  enabled : system.throttle.policy = some policy
  deniedPast : ∀ time ∈ denied, time ≤ now
  recordedPast : ∀ time ∈ recorded, time ≤ now
  known : ∀ since, now < since + policy.window → countSince since recorded ≤ system.throttle.known user since
  single : ∀ first second, system.InFlight user first → system.InFlight user second → first = second
  unmarked : ∀ run, system.InFlight user run → system.throttle.mark user = none
  unaccepted : ∀ run, ¬ system.Stands user [.accepted] run
  few : ∀ since, now < since + policy.window → now < since + policy.lockout →
    countSince since recorded ≤ policy.maxFailures
  locked : ∀ since, now < since + policy.window → now < since + policy.lockout →
    countSince since recorded = policy.maxFailures → (∀ run, ¬ system.InFlight user run) ∧
        ∃ until_, system.throttle.mark user = some until_ ∧ since + policy.lockout ≤ until_
  pending : (∀ since, countSince since denied ≤ countSince since recorded) ∨
    ((∃ run, system.Stands user [.denied] run) ∧ ∀ since, countSince since denied ≤ countSince since recorded + 1)

namespace Accounted

variable {policy : ThrottlePolicy} {user : String} {now time : Nat} {system next : AuthSystem}
  {denied recorded : List Nat}

private theorem stands_set {phases : List AuthPhase} {run other : Nat} {attempt : Attempt} :
    (system.set run attempt).Stands user phases other ↔
      (other = run ∧ attempt.user = user ∧ attempt.phase ∈ phases) ∨ (other ≠ run ∧ system.Stands user phases other) := by
  by_cases same : other = run
  · subst same
    simp [AuthSystem.Stands, AuthSystem.set]
  · simp [AuthSystem.Stands, AuthSystem.set, same]

/-- Within an interval that window and lockout cover, no more fail than allowed. -/
theorem countSince_denied_le (accounted : Accounted policy user now system denied recorded) {since : Nat}
    (covered : now < since + policy.window) (short : now < since + policy.lockout) :
    countSince since denied ≤ policy.maxFailures := by
  have few := accounted.few since covered short
  rcases accounted.pending with settled | ⟨⟨run, stands⟩, one⟩
  · exact Nat.le_trans (settled since) few
  · rcases Nat.lt_or_eq_of_le few with fewer | all
    · exact Nat.le_trans (one since) fewer
    · obtain ⟨attempt, there, same, phase⟩ := stands
      refine absurd ⟨attempt, there, same, ?_⟩ ((accounted.locked since covered short all).1 run)
      rw [List.mem_singleton.mp phase]
      decide

/-- A step that starts nothing for the user and forgets nothing of the user. -/
theorem keep (accounted : Accounted policy user now system denied recorded) (later : now ≤ time)
    (samePolicy : next.throttle.policy = system.throttle.policy)
    (remembers : Remembers policy user time system.throttle next.throttle)
    (flights : ∀ run, next.InFlight user run → system.InFlight user run)
    (denying : ∀ run, system.Stands user [.denied] run → next.Stands user [.denied] run)
    (unaccepted : ∀ run, ¬ next.Stands user [.accepted] run) : Accounted policy user time next denied recorded where
  enabled := samePolicy.trans accounted.enabled
  deniedPast at_ member := Nat.le_trans (accounted.deniedPast at_ member) later
  recordedPast at_ member := Nat.le_trans (accounted.recordedPast at_ member) later
  known since covered := by
    by_cases past : since ≤ time
    · exact Nat.le_trans (accounted.known since (by omega)) (remembers.known since past covered)
    · rw [countSince_eq_zero accounted.recordedPast (by omega)]
      exact Nat.zero_le _
  single first second inFirst inSecond := accounted.single first second (flights first inFirst) (flights second inSecond)
  unmarked run inFlight := remembers.unlocked (accounted.unmarked run (flights run inFlight))
  unaccepted := unaccepted
  few since covered short := accounted.few since (by omega) (by omega)
  locked since covered short all := by
    obtain ⟨idle, until_, marked, long⟩ := accounted.locked since (by omega) (by omega) all
    exact ⟨fun run inFlight => idle run (flights run inFlight), until_, remembers.locked until_ marked (by omega), long⟩
  pending := by
    rcases accounted.pending with settled | ⟨⟨run, stands⟩, one⟩
    · exact .inl settled
    · exact .inr ⟨⟨run, denying run stands⟩, one⟩

/-- A run moves on without entering the flight or the refusal of the user. -/
theorem keep_set (accounted : Accounted policy user now system denied recorded) (later : now ≤ time)
    {throttle : AuthThrottle} {run : Nat} {attempt : Option Attempt} {moved : Attempt}
    (there : system.attempts run = attempt) (samePolicy : throttle.policy = system.throttle.policy)
    (remembers : Remembers policy user time system.throttle throttle)
    (flights : moved.user = user → moved.phase ∈ [.prompted, .received, .denied] → system.InFlight user run)
    (denying : ∀ before, attempt = some before → before.user = user → before.phase ≠ .denied)
    (unaccepted : moved.user = user → moved.phase ≠ .accepted) :
    Accounted policy user time ({ system with throttle := throttle }.set run moved) denied recorded := by
  refine accounted.keep later samePolicy remembers (fun other inFlight => ?_) (fun other stands => ?_)
    fun other stands => ?_
  · rcases stands_set.mp inFlight with ⟨rfl, same, phase⟩ | ⟨-, stands⟩
    · exact flights same phase
    · exact stands
  · refine stands_set.mpr (.inr ⟨?_, stands⟩)
    rintro rfl
    obtain ⟨before, found, same, phase⟩ := stands
    exact denying before (there.symm.trans found) same (List.mem_singleton.mp phase)
  · rcases stands_set.mp stands with ⟨rfl, same, phase⟩ | ⟨-, before⟩
    · exact unaccepted same (List.mem_singleton.mp phase)
    · exact accounted.unaccepted other before

/-- A run of the user gets through its check. -/
theorem admitted (accounted : Accounted policy user now system denied recorded) (later : now ≤ time) {run : Nat}
    {address : Option IpAddr} {moved : Attempt} (alone : ∀ other, ¬ system.InFlight user other)
    (passed : (system.throttle.check time address user).1 = .ok ()) (phase : moved.phase = .prompted) :
    Accounted policy user time ({ system with throttle := (system.throttle.check time address user).2 }.set run moved)
      denied recorded := by
  have remembers : Remembers policy user time system.throttle
      (system.throttle.check time address user).2 := remembers_check accounted.enabled address
  have quiet : ∀ since, time < since + policy.window → time < since + policy.lockout →
      countSince since recorded ≠ policy.maxFailures := by
    intro since covered short all
    obtain ⟨-, until_, marked, long⟩ := accounted.locked since (by omega) (by omega) all
    have expired := over_of_check_ok accounted.enabled passed marked
    omega
  -- nobody else is in flight, so the run is the only one
  have only : ∀ other, ({ system with throttle := (system.throttle.check time address user).2 }.set run
      moved).InFlight user other → other = run := by
    intro other inFlight
    rcases stands_set.mp inFlight with ⟨same, -, -⟩ | ⟨-, stands⟩
    · exact same
    · exact absurd stands (alone other)
  constructor
  · exact (policy_check _ _ _ _).trans accounted.enabled
  · exact fun at_ member => Nat.le_trans (accounted.deniedPast at_ member) later
  · exact fun at_ member => Nat.le_trans (accounted.recordedPast at_ member) later
  · intro since covered
    by_cases past : since ≤ time
    · exact Nat.le_trans (accounted.known since (by omega)) (remembers.known since past covered)
    · rw [countSince_eq_zero accounted.recordedPast (by omega)]
      exact Nat.zero_le _
  · exact fun first second inFirst inSecond => (only first inFirst).trans (only second inSecond).symm
  · exact fun _ _ => mark_of_check_ok accounted.enabled passed
  · intro other stands
    rcases stands_set.mp stands with ⟨-, -, accepted⟩ | ⟨-, before⟩
    · rw [phase] at accepted
      exact absurd accepted (by decide)
    · exact accounted.unaccepted other before
  · exact fun since covered short => accounted.few since (by omega) (by omega)
  · exact fun since covered short all => absurd all (quiet since covered short)
  · refine .inl (accounted.pending.resolve_right ?_)
    rintro ⟨⟨other, attempt, there, same, refused⟩, -⟩
    refine alone other ⟨attempt, there, same, ?_⟩
    rw [List.mem_singleton.mp refused]
    decide

/-- A password of the user turns out wrong. -/
theorem deny (accounted : Accounted policy user now system denied recorded) (later : now ≤ time) {run : Nat}
    {attempt : Attempt} (there : system.attempts run = some attempt) (same : attempt.user = user)
    (received : attempt.phase = .received) :
    Accounted policy user time (system.set run { attempt with phase := .denied }) (denied ++ [time]) recorded := by
  have inFlight : system.InFlight user run := by
    refine ⟨attempt, there, same, ?_⟩
    rw [received]
    decide
  have moved : Accounted policy user time (system.set run { attempt with phase := .denied }) denied recorded := by
    refine accounted.keep_set later there rfl (.of_eq rfl) (fun _ _ => inFlight) ?_ (fun _ => by simp)
    intro before found _
    cases found
    rw [received]
    decide
  have settled : ∀ since, countSince since denied ≤ countSince since recorded := by
    refine accounted.pending.resolve_right ?_
    rintro ⟨⟨other, before, found, user, refused⟩, -⟩
    have refused := List.mem_singleton.mp refused
    obtain rfl : other = run := by
      refine accounted.single other run ⟨before, found, user, ?_⟩ inFlight
      rw [refused]
      decide
    cases found.symm.trans there
    rw [received] at refused
    cases refused
  refine { moved with deniedPast := ?_, pending := .inr ⟨⟨run, ?_⟩, fun since => ?_⟩ }
  · intro at_ member
    rcases List.mem_append.mp member with old | last
    · exact moved.deniedPast at_ old
    · exact Nat.le_of_eq (List.mem_singleton.mp last)
  · exact stands_set.mpr (.inl ⟨rfl, same, List.mem_singleton.mpr rfl⟩)
  · rw [countSince_append]
    refine Nat.add_le_add (settled since) ?_
    split
    · exact Nat.le_refl _
    · exact Nat.zero_le _

private theorem record (accounted : Accounted policy user now system denied recorded) (later : now ≤ time)
    {run : Nat} {attempt : Attempt} (there : system.attempts run = some attempt) (same : attempt.user = user)
    (refused : attempt.phase = .denied) (room : system.throttle.Admits policy time attempt.address user) : Accounted policy user time ({ system with
      throttle := (system.throttle.recordFailure time attempt.address user).2 }.set run
        { attempt with phase := .finished }) denied (recorded ++ [time]) := by
  have inFlight : system.InFlight user run := by
    refine ⟨attempt, there, same, ?_⟩
    rw [refused]
    decide
  have unmarked := accounted.unmarked run inFlight
  obtain ⟨counts, locks⟩ := recordFailure_unmarked accounted.enabled room unmarked
  -- no other run is in flight, and this one leaves
  have idle : ∀ other, ¬ ({ system with
      throttle := (system.throttle.recordFailure time attempt.address user).2 }.set run
        { attempt with phase := .finished }).InFlight user other := by
    intro other still
    rcases stands_set.mp still with ⟨-, -, phase⟩ | ⟨different, stands⟩
    · exact absurd phase (by simp)
    · exact different (accounted.single other run stands inFlight)
  have known : ∀ since, time < since + policy.window → countSince since (recorded ++ [time]) ≤
      (system.throttle.recordFailure time attempt.address user).2.known user since := by
    intro since covered
    rw [countSince_append]
    split
    · rename_i past
      exact Nat.le_trans (Nat.add_le_add_right (accounted.known since (by omega)) 1) (counts since past covered)
    · rw [countSince_eq_zero accounted.recordedPast (by omega)]
      exact Nat.zero_le _
  have few : ∀ since, time < since + policy.window → time < since + policy.lockout →
      countSince since (recorded ++ [time]) ≤ policy.maxFailures := by
    intro since covered short
    have before := accounted.few since (by omega) (by omega)
    have notAll : countSince since recorded ≠ policy.maxFailures :=
      fun all => (accounted.locked since (by omega) (by omega) all).1 run inFlight
    rw [countSince_append]
    split
    · omega
    · omega
  have recordedPast : ∀ at_ ∈ recorded ++ [time], at_ ≤ time := by
    intro at_ member
    rcases List.mem_append.mp member with old | last
    · exact Nat.le_trans (accounted.recordedPast at_ old) later
    · exact Nat.le_of_eq (List.mem_singleton.mp last)
  constructor
  · exact (policy_recordFailure _ _ _ _).trans accounted.enabled
  · exact fun at_ member => Nat.le_trans (accounted.deniedPast at_ member) later
  · exact recordedPast
  · exact known
  · exact fun first _ inFirst _ => absurd inFirst (idle first)
  · exact fun other still => absurd still (idle other)
  · intro other stands
    rcases stands_set.mp stands with ⟨-, -, phase⟩ | ⟨-, before⟩
    · exact absurd phase (by simp)
    · exact accounted.unaccepted other before
  · exact few
  · intro since covered short all
    refine ⟨idle, time + policy.lockout, locks ⟨since, all ▸ known since covered⟩, ?_⟩
    have past : since ≤ time := by
      by_contra after
      rw [countSince_eq_zero recordedPast (Nat.lt_of_not_le after)] at all
      exact (accounted.locked since (by omega) (by omega)
        (all ▸ countSince_eq_zero accounted.recordedPast (by omega))).1 run inFlight
    omega
  · refine .inl fun since => ?_
    rw [countSince_append]
    split
    · rcases accounted.pending with settled | ⟨-, one⟩
      · exact Nat.le_trans (settled since) (Nat.le_add_right _ _)
      · exact one since
    · rw [countSince_eq_zero accounted.deniedPast (by omega)]
      exact Nat.zero_le _

/-- The times of the failed verifications of a user a step adds. -/
def denialTimes (user : String) (denial : Option Denial) : List Nat :=
  match denial with
  | some denial => if denial.user = user then [denial.time] else []
  | none => []

section

variable {run : Nat} {attempt : Attempt}

private theorem step_check (accounted : Accounted policy user now system denied recorded) (later : now ≤ time)
    (there : system.attempts run = some attempt) (started : attempt.phase = .started)
    (alone : attempt.user = user → ∀ other, ¬ system.InFlight user other) :
    Accounted policy user time (system.check time run attempt) denied recorded := by
  have remembers : Remembers policy user time system.throttle
      (system.throttle.check time attempt.address attempt.user).2 :=
    remembers_check accounted.enabled attempt.address
  have notDenied : ∀ before, some attempt = some before → before.user = user → before.phase ≠ .denied := by
    intro before found _
    cases found
    rw [started]
    decide
  rw [AuthSystem.check]
  cases passed : (system.throttle.check time attempt.address attempt.user).1 with
  | error remaining =>
    exact accounted.keep_set later there (policy_check _ _ _ _) remembers
      (fun _ phase => absurd phase (by simp)) notDenied (fun _ => by simp)
  | ok _ =>
    by_cases same : attempt.user = user
    · subst same
      exact accounted.admitted later (alone rfl) passed rfl
    · exact accounted.keep_set later there (policy_check _ _ _ _) remembers
        (fun self => absurd self same) notDenied (fun self => absurd self same)

private theorem step_receive (accounted : Accounted policy user now system denied recorded) (later : now ≤ time)
    (there : system.attempts run = some attempt) (prompted : attempt.phase = .prompted) (password : Bool) :
    Accounted policy user time
      (system.set run { attempt with phase := if password then .received else .finished }) denied recorded := by
  refine accounted.keep_set later there rfl (.of_eq rfl) (fun same _ => ⟨attempt, there, same, ?_⟩) ?_ fun _ => ?_
  · rw [prompted]
    decide
  · intro before found _
    cases found
    rw [prompted]
    decide
  · cases password with
    | false => exact nofun
    | true => exact nofun

private theorem step_verify (accounted : Accounted policy user now system denied recorded) (later : now ≤ time)
    (there : system.attempts run = some attempt) (received : attempt.phase = .received) :
    Accounted policy user time (system.set run { attempt with phase := .denied })
      (denied ++ denialTimes user (some ⟨time, attempt.user⟩)) recorded := by
  have times : denialTimes user (some ⟨time, attempt.user⟩) = if attempt.user = user then [time] else [] := rfl
  rw [times]
  by_cases same : attempt.user = user
  · rw [if_pos same]
    exact accounted.deny later there same received
  · rw [if_neg same, List.append_nil]
    refine accounted.keep_set later there rfl (.of_eq rfl) (fun self => absurd self same) ?_ (fun _ => nofun)
    intro before found _
    cases found
    rw [received]
    decide

private theorem step_record (accounted : Accounted policy user now system denied recorded) (later : now ≤ time)
    (there : system.attempts run = some attempt) (refused : attempt.phase = .denied)
    (room : attempt.user = user → system.throttle.Admits policy time attempt.address user) :
    ∃ recorded', Accounted policy user time ({ system with
      throttle := (system.throttle.recordFailure time attempt.address attempt.user).2 }.set run
        { attempt with phase := .finished }) denied recorded' := by
  by_cases same : attempt.user = user
  · obtain ⟨address, name, phase⟩ := attempt
    cases same
    exact ⟨_, accounted.record later there rfl refused (room rfl)⟩
  · refine ⟨recorded, accounted.keep_set later there (policy_recordFailure _ _ _ _)
      (remembers_recordFailure accounted.enabled (Ne.symm same) _) (fun self => absurd self same) ?_
      (fun self => absurd self same)⟩
    intro before found self
    cases found
    exact absurd self same

private theorem step_accept (accounted : Accounted policy user now system denied recorded) (later : now ≤ time)
    (there : system.attempts run = some attempt) (different : attempt.user ≠ user) {throttle : AuthThrottle}
    {phase : AuthPhase} (samePolicy : throttle.policy = system.throttle.policy)
    (remembers : Remembers policy user time system.throttle throttle) :
    Accounted policy user time ({ system with throttle := throttle }.set run { attempt with phase := phase })
      denied recorded := by
  refine accounted.keep_set later there samePolicy remembers (fun self => absurd self different) ?_
    (fun self => absurd self different)
  intro before found self
  cases found
  exact absurd self different

end

variable {event : AuthEvent} {attempt : Attempt}

private theorem step_some (accounted : Accounted policy user now system denied recorded) (later : now ≤ event.time)
    (there : system.attempts event.run = some attempt) (serial : Serial policy user system event) :
    ∃ recorded', Accounted policy user event.time (system.step event).2
      (denied ++ denialTimes user (system.step event).1) recorded' := by
  have idle : Accounted policy user event.time system (denied ++ denialTimes user none) recorded := by
    rw [denialTimes, List.append_nil]
    exact accounted.keep later rfl (.of_eq rfl) (fun _ inFlight => inFlight) (fun _ stands => stands)
      accounted.unaccepted
  obtain ⟨time, run, action⟩ := event
  have unchanged : denied = denied ++ denialTimes user none := (List.append_nil denied).symm
  have notAccepted : attempt.phase = .accepted → attempt.user ≠ user := fun phase same =>
    accounted.unaccepted run ⟨attempt, there, same, List.mem_singleton.mpr phase⟩
  obtain ⟨address, name, phase⟩ := attempt
  rw [AuthSystem.step]
  simp only [there]
  cases phase with
  | started =>
    cases action with
    | check => exact ⟨recorded, unchanged ▸ accounted.step_check later there rfl fun same =>
      serial.alone _ there same rfl rfl⟩
    | _ => exact ⟨recorded, idle⟩
  | prompted =>
    cases action with
    | receive password => exact ⟨recorded, unchanged ▸ accounted.step_receive later there rfl password⟩
    | _ => exact ⟨recorded, idle⟩
  | received =>
    cases action with
    | verify accepted =>
      cases accepted with
      | false => exact ⟨recorded, accounted.step_verify later there rfl⟩
      | true =>
        have different : name ≠ user := fun same => serial.noSuccess _ there same rfl
        exact ⟨recorded, unchanged ▸ accounted.step_accept later there different rfl (.of_eq rfl)⟩
    | _ => exact ⟨recorded, idle⟩
  | denied =>
    cases action with
    | record => exact unchanged ▸ accounted.step_record later there rfl fun same => serial.room _ there same rfl rfl
    | _ => exact ⟨recorded, idle⟩
  | accepted =>
    cases action with
    | record =>
      have different := notAccepted rfl
      exact ⟨recorded, unchanged ▸ accounted.step_accept later there different
        (policy_recordSuccess _ _ _)
        (remembers_recordSuccess (Ne.symm different) address)⟩
    | _ => exact ⟨recorded, idle⟩
  | finished => exact ⟨recorded, idle⟩

private theorem step (accounted : Accounted policy user now system denied recorded) (later : now ≤ event.time)
    (serial : Serial policy user system event) : ∃ recorded', Accounted policy user event.time (system.step event).2
      (denied ++ denialTimes user (system.step event).1) recorded' := by
  cases there : system.attempts event.run with
  | some attempt => exact accounted.step_some later there serial
  | none =>
    have idle : Accounted policy user event.time system denied recorded :=
      accounted.keep later rfl (.of_eq rfl) (fun _ inFlight => inFlight) (fun _ stands => stands) accounted.unaccepted
    obtain ⟨time, run, action⟩ := event
    cases action with
    | start address name =>
      refine ⟨recorded, ?_⟩
      simp only [AuthSystem.step, there, denialTimes, List.append_nil]
      exact accounted.keep_set later there rfl (.of_eq rfl) (fun _ phase => absurd phase (by simp)) nofun
        (fun _ => by simp)
    | _ =>
      refine ⟨recorded, ?_⟩
      simp only [AuthSystem.step, there, denialTimes, List.append_nil]
      exact idle

private theorem start {throttle : AuthThrottle} (enabled : throttle.policy = some policy)
    (positive : 0 < policy.maxFailures) :
    Accounted policy user 0 (.init throttle) [] [] where
  enabled := enabled
  deniedPast := nofun
  recordedPast := nofun
  known _ _ := Nat.zero_le _
  single := by
    rintro first second ⟨attempt, there, -⟩
    cases there
  unmarked := by
    rintro run ⟨attempt, there, -⟩
    cases there
  unaccepted := by
    rintro run ⟨attempt, there, -⟩
    cases there
  few _ _ _ := Nat.zero_le _
  locked _ _ _ all := absurd all (Nat.ne_of_lt positive)
  pending := .inl fun _ => Nat.le_refl _

/-- The account is kept over any sequence of steps. -/
theorem run {events : List AuthEvent} (accounted : Accounted policy user now system denied recorded)
    (ordered : InOrder AuthEvent.time now events) (serial : Machine.Meets AuthSystem.step (Serial policy user) system events) :
    ∃ last recorded', (last = now ∨ ∃ event ∈ events, event.time = last) ∧
      Accounted policy user last (Machine.run AuthSystem.step system events).2
        (denied ++ (Machine.run AuthSystem.step system events).1.flatMap (denialTimes user)) recorded' := by
  induction events generalizing now system denied recorded with
  | nil => exact ⟨now, recorded, .inl rfl, by rwa [Machine.run_nil, List.flatMap_nil, List.append_nil]⟩
  | cons event rest ih =>
    obtain ⟨between, next⟩ := accounted.step ordered.1 serial.1
    obtain ⟨last, recorded', listed, done⟩ := ih next ordered.2 serial.2
    refine ⟨last, recorded', .inr ?_, ?_⟩
    · rcases listed with rfl | ⟨other, member, same⟩
      · exact ⟨event, List.mem_cons_self, rfl⟩
      · exact ⟨other, List.mem_cons_of_mem _ member, same⟩
    · rw [Machine.run_cons, List.flatMap_cons, ← List.append_assoc]
      exact done

end Accounted

/-! ## Failed verifications in an interval -/

namespace AuthSystem

variable {system : AuthSystem} {events : List AuthEvent} {now : Nat}

/-- A failed verification is noted with the time of its step. -/
theorem time_of_denial {event : AuthEvent} {denial : Denial} (denied : (system.step event).1 = some denial) :
    denial.time = event.time := by
  obtain ⟨time, run, action⟩ := event
  rw [step] at denied
  split at denied
  · cases denied
  · split at denied
    all_goals first | cases denied; rfl | cases denied
  · cases denied

private theorem exists_event_of_denial {denial : Denial} (noted : some denial ∈ (Machine.run step system events).1) :
    ∃ event ∈ events, denial.time = event.time := by
  induction events generalizing system with
  | nil => cases noted
  | cons event rest ih =>
    rcases List.mem_cons.mp noted with here | later
    · exact ⟨event, List.mem_cons_self, time_of_denial here.symm⟩
    · obtain ⟨other, listed, same⟩ := ih later
      exact ⟨other, List.mem_cons_of_mem _ listed, same⟩

private theorem le_of_inOrder (ordered : InOrder AuthEvent.time now events) : ∀ event ∈ events, now ≤ event.time := by
  induction events generalizing now with
  | nil => exact nofun
  | cons first rest ih =>
    intro event member
    rcases List.mem_cons.mp member with rfl | later
    · exact ordered.1
    · exact Nat.le_trans ordered.1 (ih ordered.2 event later)

/-- In time order the steps up to a time come first. -/
theorem exists_split (ordered : InOrder AuthEvent.time now events) (last : Nat) :
    ∃ before after, events = before ++ after ∧ InOrder AuthEvent.time now before ∧
      (∀ event ∈ before, event.time ≤ last) ∧ ∀ event ∈ after, last < event.time := by
  induction events generalizing now with
  | nil => exact ⟨[], [], rfl, trivial, nofun, nofun⟩
  | cons event rest ih =>
    obtain ⟨before, after, split, first, early, late⟩ := ih ordered.2
    by_cases inside : event.time ≤ last
    · refine ⟨event :: before, after, by rw [split]; rfl, ⟨ordered.1, first⟩, fun other member => ?_, late⟩
      rcases List.mem_cons.mp member with rfl | listed
      · exact inside
      · exact early other listed
    · refine ⟨[], event :: rest, rfl, trivial, nofun, fun other member => ?_⟩
      rcases List.mem_cons.mp member with rfl | listed
      · exact Nat.lt_of_not_le inside
      · exact Nat.lt_of_lt_of_le (Nat.lt_of_not_le inside) (le_of_inOrder ordered.2 other listed)

/-- The failed verifications of a user since a time, counted either way. -/
theorem countP_denials_le (outputs : List (Option Denial)) (user : String) (first last : Nat) :
    ((outputs.filterMap id).countP fun denial =>
      denial.user == user && decide (first ≤ denial.time) && decide (denial.time ≤ last)) ≤
        countSince first (outputs.flatMap (Accounted.denialTimes user)) := by
  induction outputs with
  | nil => exact Nat.le_refl _
  | cons output rest ih =>
    rw [List.flatMap_cons, countSince, List.countP_append]
    cases output with
    | none =>
      rw [List.filterMap_cons]
      simp only [id_eq]
      exact Nat.le_trans ih (Nat.le_add_left _ _)
    | some denial =>
      rw [List.filterMap_cons]
      simp only [id_eq]
      rw [List.countP_cons, Nat.add_comm]
      refine Nat.add_le_add ?_ ih
      split
      · rename_i counted
        simp only [Bool.and_eq_true, beq_iff_eq, decide_eq_true_eq] at counted
        have times : Accounted.denialTimes user (some denial) = [denial.time] := if_pos counted.1.1
        refine Nat.le_of_eq ?_
        rw [times, List.countP_singleton, if_pos (decide_eq_true counted.1.2)]
      · exact Nat.zero_le _

end AuthSystem

/-- Runs for a user that come one at a time fail at most as often as the policy allows in
any interval shorter than window and lockout, whatever else goes on. -/
theorem serial_guesses_are_bounded {policy : ThrottlePolicy} {throttle : AuthThrottle} {user : String}
    {events : List AuthEvent} {first last : Nat} (enabled : throttle.policy = some policy)
    (positive : 0 < policy.maxFailures) (ordered : InOrder AuthEvent.time 0 events)
    (serial : Machine.Meets AuthSystem.step (Serial policy user) (.init throttle) events)
    (window : last < first + policy.window) (lockout : last < first + policy.lockout) :
    (AuthSystem.init throttle).denials events user first last ≤ policy.maxFailures := by
  obtain ⟨before, after, rfl, orderedBefore, early, late⟩ := AuthSystem.exists_split ordered last
  have initial : Accounted policy user 0 (.init throttle) [] [] := Accounted.start enabled positive
  obtain ⟨now, recorded, listed, accounted⟩ := initial.run orderedBefore (Machine.meets_append.mp serial).1
  have reached : now ≤ last := by
    rcases listed with rfl | ⟨event, member, rfl⟩
    · exact Nat.zero_le _
    · exact early event member
  have bounded := accounted.countSince_denied_le (Nat.lt_of_le_of_lt reached window)
    (Nat.lt_of_le_of_lt reached lockout)
  rw [List.nil_append] at bounded
  -- what comes after the interval is not counted
  have none : ((Machine.run AuthSystem.step (Machine.run AuthSystem.step (.init throttle) before).2 after).1.filterMap
      id).countP (fun denial => denial.user == user && decide (first ≤ denial.time) && decide (denial.time ≤ last)) =
        0 := by
    rw [List.countP_eq_zero]
    intro denial member
    obtain ⟨_, noted, rfl⟩ := List.mem_filterMap.mp member
    obtain ⟨event, listed, same⟩ := AuthSystem.exists_event_of_denial noted
    have outside : ¬ denial.time ≤ last := same ▸ Nat.not_le_of_lt (late event listed)
    simp [outside]
  rw [AuthSystem.denials, Machine.run_append, List.filterMap_append, List.countP_append, none]
  exact Nat.le_trans (AuthSystem.countP_denials_le _ _ _ _) bounded

/-! ## Guesses one after another, and two at once -/

/-- `Serial` as a test, if only runs below a bound have started. -/
def serialBelow (bound : Nat) (policy : ThrottlePolicy) (user : String) (system : AuthSystem) (event : AuthEvent) : Bool :=
  match system.attempts event.run with
  | none => true
  | some attempt =>
    attempt.user != user ||
      match attempt.phase, event.action with
      | _, .verify true => false
      | .denied, .record => decide (system.throttle.Admits policy event.time attempt.address user)
      | .started, .check => (List.range bound).all fun other => (system.attempts other).all fun attempt =>
          attempt.user != user || !([.prompted, .received, .denied] : List AuthPhase).contains attempt.phase
      | _, _ => true

section

variable {bound : Nat} {policy : ThrottlePolicy} {user : String} {system : AuthSystem} {event : AuthEvent}

private theorem serial_of_below (started : ∀ run, bound ≤ run → system.attempts run = none)
    (tested : serialBelow bound policy user system event = true) : Serial policy user system event := by
  obtain ⟨time, run, action⟩ := event
  rw [serialBelow] at tested
  refine ⟨?_, ?_, ?_⟩
  · rintro attempt there rfl rfl
    simp [there] at tested
  · rintro attempt there rfl phase rfl
    simpa [there, phase] using tested
  · rintro attempt there rfl phase rfl other ⟨attempt', there', same, inFlight⟩
    have below : other < bound := by
      by_contra beyond
      simp [started other (Nat.le_of_not_lt beyond)] at there'
    simp only [there, phase, bne_self_eq_false, Bool.false_or, List.all_eq_true, List.mem_range] at tested
    exact absurd inFlight (by simpa [there', same] using tested other below)

/-- A step changes only the run that takes it. -/
theorem attempts_step {run : Nat} (other : run ≠ event.run) :
    (system.step event).2.attempts run = system.attempts run := by
  have kept (throttle : AuthThrottle) (attempt : Attempt) :
      ({ system with throttle := throttle }.set event.run attempt).attempts run = system.attempts run :=
    Function.update_of_ne other _ _
  rw [AuthSystem.step.eq_def]
  split
  · exact kept _ _
  · split
    · rw [AuthSystem.check]
      dsimp only
      split <;> exact kept _ _
    all_goals first | exact kept _ _ | rfl
  · rfl

private theorem meets_serial {events : List AuthEvent} (started : ∀ run, bound ≤ run → system.attempts run = none)
    (below : ∀ event ∈ events, event.run < bound)
    (tested : Machine.Meets AuthSystem.step (fun system event => serialBelow bound policy user system event) system events) :
    Machine.Meets AuthSystem.step (Serial policy user) system events := by
  induction events generalizing system with
  | nil => trivial
  | cons event rest ih =>
    obtain ⟨first, others⟩ := List.forall_mem_cons.mp below
    refine ⟨serial_of_below started tested.1, ih (fun run beyond => ?_) others tested.2⟩
    rw [attempts_step (Nat.ne_of_gt (Nat.lt_of_lt_of_le first beyond)), started run beyond]

end

/-- The steps of a run that fails, up to its verification. -/
def guess (run : Nat) : List AuthEvent :=
  [⟨0, run, .start none "admin"⟩, ⟨0, run, .check⟩, ⟨0, run, .receive true⟩, ⟨0, run, .verify false⟩]

/-- A run that fails on its own. -/
def loneGuess (run : Nat) : List AuthEvent := guess run ++ [⟨0, run, .record⟩]

/-- Five runs fail one after the other, and the sixth is locked out: five failed verifications. -/
theorem sixth_serial_guess_is_locked_out :
    (AuthSystem.init (.new .default)).denials ((List.range 6).flatMap loneGuess) "admin" 0 0 = 5 ∧
      (AuthSystem.init (.new .default)).denials ((List.range 6).flatMap loneGuess) "admin" 0 0 ≤ 5 := by
  have serial : Machine.Meets AuthSystem.step (Serial .default "admin") (.init (.new .default))
      ((List.range 6).flatMap loneGuess) := @meets_serial 6 _ _ _ _ (fun _ _ => rfl) (by decide +kernel) (by decide +kernel)
  have ordered : InOrder AuthEvent.time 0 ((List.range 6).flatMap loneGuess) := by
    simp [InOrder, loneGuess, guess, List.range_succ]
  exact ⟨by decide +kernel, serial_guesses_are_bounded rfl (by decide) ordered serial (by decide) (by decide)⟩

/-- Two runs that both get through their check before either fails. -/
def pairedGuesses (run other : Nat) : List AuthEvent :=
  [⟨0, run, .start none "admin"⟩, ⟨0, other, .start none "admin"⟩, ⟨0, run, .check⟩, ⟨0, other, .check⟩,
    ⟨0, run, .receive true⟩, ⟨0, other, .receive true⟩, ⟨0, run, .verify false⟩, ⟨0, other, .verify false⟩]

/-- Four failures, and then two runs at once: six failed verifications where five are
allowed. -/
theorem two_runs_at_once_gain_a_guess : (AuthSystem.init (.new .default)).denials
      (loneGuess 0 ++ loneGuess 1 ++ loneGuess 2 ++ loneGuess 3 ++ pairedGuesses 4 5) "admin" 0 0 = 6 := by
  decide +kernel

end Ferrite.Protocol
