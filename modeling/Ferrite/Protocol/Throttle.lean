import Ferrite.Logical.Machine
import Ferrite.Logical.Table

/-!
# The authentication throttle

`ferrite-protocol/src/throttle.rs`: failed attempts are counted per source address and per
user name in a sliding window, and a source that reaches the limit is locked out for a
while. The table of sources is bounded. Times are in nanoseconds, and each call of the
tracker happens at the time it reads from the clock.
-/

namespace Ferrite.Protocol

open Logical

inductive IpAddr where
  | v4 (bits : BitVec 32)
  | v6 (bits : BitVec 128)
deriving DecidableEq

/-- What a source is identified by. -/
inductive Key where
  | address (address : IpAddr)
  | user (name : String)
deriving DecidableEq

/-- Most sources tracked at once. -/
def maxTrackedSources : Nat := 10000

/-- How aggressive the throttle is. -/
structure ThrottlePolicy where
  maxFailures : Nat
  window : Nat
  lockout : Nat
  delayStep : Nat
  maxDelay : Nat

/-- Five failures a minute, and five minutes of lockout. -/
def ThrottlePolicy.default : ThrottlePolicy where
  maxFailures := 5
  window := 60000000000
  lockout := 300000000000
  delayStep := 100000000
  maxDelay := 2000000000

/-- What is remembered of a source: its failures inside the window, the oldest first. -/
structure Entry where
  failures : List Nat
  lockedUntil : Option Nat
  lastSeen : Nat
deriving DecidableEq

namespace Entry

def fresh (now : Nat) : Entry := ⟨[], none, now⟩

/-- Drop the failures that have fallen out of the window. -/
def prune (entry : Entry) (now window : Nat) : Entry :=
  { entry with failures := entry.failures.dropWhile fun at_ => decide (window ≤ now - at_) }

/-- How long the source stays locked. -/
def remaining (entry : Entry) (now : Nat) : Nat :=
  match entry.lockedUntil with
  | some until_ => until_ - now
  | none => 0

/-- What a check does to an entry: a lock that is over is taken off. -/
def settle (policy : ThrottlePolicy) (now : Nat) (entry : Entry) : Entry :=
  let pruned := entry.prune now policy.window
  match pruned.lockedUntil with
  | some until_ => if until_ > now then pruned else { pruned with lockedUntil := none }
  | none => pruned

/-- What a failure does to an entry. -/
def fail (policy : ThrottlePolicy) (now : Nat) (entry : Entry) : Entry :=
  let failures := (entry.prune now policy.window).failures ++ [now]
  { failures := failures
    lockedUntil :=
      if policy.maxFailures ≤ failures.length ∧ entry.lockedUntil = none then some (now + policy.lockout)
      else entry.lockedUntil
    lastSeen := now }

/-- What a sweep leaves of an entry: a source with nothing to remember is dropped. -/
def sweep (policy : ThrottlePolicy) (now : Nat) (entry : Entry) : Option Entry :=
  let pruned := entry.prune now policy.window
  let locked := pruned.lockedUntil.any fun until_ => decide (now < until_)
  if locked || !pruned.failures.isEmpty then some pruned else none

end Entry

/-- Sliding-window failure counter, shared by every connection. -/
structure AuthThrottle where
  policy : Option ThrottlePolicy
  state : Table Key Entry

def keys (address : Option IpAddr) (user : String) : List Key := (address.map Key.address).toList ++ [.user user]

namespace AuthThrottle

def new (policy : ThrottlePolicy) : AuthThrottle := ⟨some policy, .empty⟩

/-- The longest lock so far and the table, after one more key. -/
def checkKey (policy : ThrottlePolicy) (now : Nat) (sofar : Nat × Table Key Entry) (key : Key) : Nat × Table Key Entry :=
  match sofar.2.find key with
  | none => sofar
  | some entry => (max sofar.1 (entry.remaining now), sofar.2.alter key (Entry.settle policy now))

/-- An error is how long the source stays locked out. -/
def check (throttle : AuthThrottle) (now : Nat) (address : Option IpAddr) (user : String) :
    Except Nat Unit × AuthThrottle :=
  match throttle.policy with
  | none => (.ok (), throttle)
  | some policy =>
    let checked := (keys address user).foldl (checkKey policy now) (0, throttle.state)
    (if checked.1 = 0 then .ok () else .error checked.1, { throttle with state := checked.2 })

/-- The table with an entry for the key, unless it is full. -/
def track (now : Nat) (state : Table Key Entry) (key : Key) : Option (Table Key Entry) :=
  if absent : state.find key = none then
    if maxTrackedSources ≤ state.size then none else some (state.add key (Entry.fresh now) absent)
  else some state

/-- The delay so far and the table, after the failure of one more key. -/
def failKey (policy : ThrottlePolicy) (now : Nat) (sofar : Nat × Table Key Entry) (key : Key) : Nat × Table Key Entry :=
  match track now sofar.2 key with
  | none => sofar
  | some state =>
    let state := state.alter key (Entry.fail policy now)
    let count := match state.find key with
      | some entry => entry.failures.length
      | none => 0
    (min (max sofar.1 (policy.delayStep * count)) policy.maxDelay, state)

/-- At the cap, drop the sources with nothing left to remember. -/
def sweepIfFull (policy : ThrottlePolicy) (now : Nat) (state : Table Key Entry) : Table Key Entry :=
  if maxTrackedSources ≤ state.size then state.retain (Entry.sweep policy now) else state

/-- Record a failed attempt; the answer is how long the refusal is held back. -/
def recordFailure (throttle : AuthThrottle) (now : Nat) (address : Option IpAddr) (user : String) :
    Nat × AuthThrottle :=
  match throttle.policy with
  | none => (0, throttle)
  | some policy =>
    let failed := (keys address user).foldl (failKey policy now) (0, sweepIfFull policy now throttle.state)
    (failed.1, { throttle with state := failed.2 })

/-- Forget the failures of a source. -/
def recordSuccess (throttle : AuthThrottle) (address : Option IpAddr) (user : String) : AuthThrottle :=
  match throttle.policy with
  | none => throttle
  | some _ => { throttle with state := (keys address user).foldl Table.erase throttle.state }

end AuthThrottle

/-! ## One entry -/

namespace Entry

variable {policy : ThrottlePolicy} {now : Nat} {entry : Entry}

/-- A lock that is not over survives a check, and no other does. -/
theorem lockedUntil_settle (policy : ThrottlePolicy) (now : Nat) (entry : Entry) :
    (entry.settle policy now).lockedUntil = entry.lockedUntil.filter fun until_ => decide (now < until_) := by
  obtain ⟨failures, lockedUntil, lastSeen⟩ := entry
  cases lockedUntil with
  | none => rfl
  | some until_ =>
    rw [Option.filter_some]
    by_cases notOver : now < until_
    · simp [settle, prune, notOver]
    · simp [settle, prune, notOver]

theorem failures_settle (policy : ThrottlePolicy) (now : Nat) (entry : Entry) :
    (entry.settle policy now).failures = (entry.prune now policy.window).failures := by
  simp only [settle]
  split
  · split <;> rfl
  · rfl

/-- A failure locks a source that was not locked if it completes the count. -/
theorem lockedUntil_fail (unlocked : entry.lockedUntil = none) : (entry.fail policy now).lockedUntil =
      if policy.maxFailures ≤ (entry.fail policy now).failures.length then some (now + policy.lockout) else none := by
  simp [fail, unlocked]

theorem sweep_eq_some {kept : Entry} (swept : entry.sweep policy now = some kept) :
    kept = entry.prune now policy.window := by
  simp only [sweep] at swept
  split at swept
  · exact (Option.some.inj swept).symm
  · cases swept

theorem sweep_of_locked {until_ : Nat} (locked : entry.lockedUntil = some until_) (notOver : now < until_) :
    entry.sweep policy now = some (entry.prune now policy.window) := by
  simp [sweep, prune, locked, notOver]

theorem sweep_of_failures (left : (entry.prune now policy.window).failures ≠ []) :
    entry.sweep policy now = some (entry.prune now policy.window) := by
  simp [sweep, left]

/-- Failures since a time that the window still covers are not pruned. -/
theorem countP_prune {since window : Nat} (past : since ≤ now) (covered : now < since + window) :
    (entry.prune now window).failures.countP (fun at_ => decide (since ≤ at_)) =
      entry.failures.countP fun at_ => decide (since ≤ at_) := by
  rw [prune]
  induction entry.failures with
  | nil => rfl
  | cons at_ rest ih =>
    rw [List.dropWhile_cons]
    split
    · rename_i old
      have before : ¬ since ≤ at_ := by
        have := of_decide_eq_true old
        omega
      rw [ih, List.countP_cons_of_neg (by simpa using before)]
    · rfl

/-- A lock that is not over has time left. -/
theorem remaining_pos {until_ : Nat} (locked : entry.lockedUntil = some until_) (notOver : now < until_) :
    0 < entry.remaining now := by
  rw [remaining, locked]
  exact Nat.sub_pos_of_lt notOver

theorem remaining_eq_zero (unlocked : ∀ until_, entry.lockedUntil = some until_ → until_ ≤ now) :
    entry.remaining now = 0 := by
  rw [remaining]
  split
  · rename_i until_ locked
    exact Nat.sub_eq_zero_of_le (unlocked until_ locked)
  · rfl

end Entry

/-! ## What is known of one user -/

namespace AuthThrottle

/-- What the table knows of a user. -/
def ofUser (throttle : AuthThrottle) (user : String) : Option Entry := throttle.state.find (.user user)

variable {policy : ThrottlePolicy} {throttle : AuthThrottle} {now : Nat} {address : Option IpAddr}

theorem foldl_keys {β : Type} (step : β → Key → β) (start : β) (address : Option IpAddr) (user : String) :
    (keys address user).foldl step start = step ((address.map Key.address).toList.foldl step start) (.user user) := by
  rw [keys, List.foldl_append]
  rfl

private theorem find_checkKey (policy : ThrottlePolicy) (now : Nat) (sofar : Nat × Table Key Entry) (key probe : Key) :
    (checkKey policy now sofar key).2.find probe =
      if probe = key then (sofar.2.find probe).map (Entry.settle policy now) else sofar.2.find probe := by
  rw [checkKey]
  split
  · rename_i absent
    split
    · rename_i same
      subst same
      rw [absent]
      rfl
    · rfl
  · exact Table.find_alter _ _ _ _

/-- The key of an address is not the key of a user. -/
theorem find_check_address (policy : ThrottlePolicy) (now : Nat) (sofar : Nat × Table Key Entry)
    (address : Option IpAddr) (user : String) :
    ((address.map Key.address).toList.foldl (checkKey policy now) sofar).2.find (.user user) =
      sofar.2.find (.user user) := by
  cases address with
  | none => rfl
  | some held => exact (find_checkKey policy now sofar _ _).trans (if_neg nofun)

/-- A check settles the entry of its own user only. -/
theorem ofUser_check (enabled : throttle.policy = some policy) (now : Nat) (address : Option IpAddr) (user other : String) :
    (throttle.check now address user).2.ofUser other =
      if other = user then (throttle.ofUser other).map (Entry.settle policy now) else throttle.ofUser other := by
  rw [check, enabled]
  simp only [ofUser]
  rw [foldl_keys, find_checkKey, find_check_address]
  by_cases same : other = user
  · rw [if_pos same, if_pos (congrArg Key.user same)]
  · rw [if_neg same, if_neg fun keys => same (Key.user.inj keys)]

theorem policy_check (throttle : AuthThrottle) (now : Nat) (address : Option IpAddr) (user : String) :
    (throttle.check now address user).2.policy = throttle.policy := by
  rw [check]
  split
  · rfl
  · rfl

private theorem max_le_checkKey (policy : ThrottlePolicy) (now : Nat) (sofar : Nat × Table Key Entry) (key : Key) :
    (checkKey policy now sofar key).1 = max sofar.1 (((sofar.2.find key).map fun entry => entry.remaining now).getD 0) := by
  rw [checkKey]
  split
  · rename_i absent
    rw [absent]
    exact (Nat.max_zero _).symm
  · rename_i entry found
    rw [found]
    rfl

/-- A locked user is refused from every address. -/
theorem check_refused {user : String} {entry : Entry} (enabled : throttle.policy = some policy)
    (known : throttle.ofUser user = some entry) (locked : 0 < entry.remaining now) (address : Option IpAddr) :
    ∃ remaining, (throttle.check now address user).1 = .error remaining := by
  rw [check, enabled]
  simp only
  rw [foldl_keys, max_le_checkKey, find_check_address]
  have found : throttle.state.find (.user user) = some entry := known
  rw [found]
  refine ⟨_, if_neg ?_⟩
  simp only [Option.map_some, Option.getD_some]
  omega

/-- Without an address only the user counts. -/
theorem check_admitted {user : String} (enabled : throttle.policy = some policy)
    (unlocked : ∀ entry, throttle.ofUser user = some entry → entry.remaining now = 0) :
    (throttle.check now none user).1 = .ok () := by
  rw [check, enabled]
  simp only
  rw [foldl_keys]
  refine if_pos ?_
  change (checkKey policy now (0, throttle.state) (.user user)).1 = 0
  rw [max_le_checkKey, Nat.zero_max]
  cases found : throttle.state.find (.user user) with
  | none => rfl
  | some entry => exact unlocked entry found

private theorem find_track {state tracked : Table Key Entry} {key : Key} (track_ : track now state key = some tracked)
    (probe : Key) :
    tracked.find probe =
      if probe = key then some ((state.find key).getD (Entry.fresh now)) else state.find probe := by
  rw [track] at track_
  split at track_
  · rename_i absent
    split at track_
    · cases track_
    · cases track_
      rw [Table.find_add, absent]
      rfl
  · rename_i present
    cases track_
    split
    · rename_i same
      subst same
      obtain ⟨entry, found⟩ := Option.ne_none_iff_exists'.mp present
      rw [found]
      rfl
    · rfl

private theorem find_failKey (policy : ThrottlePolicy) (now : Nat) (sofar : Nat × Table Key Entry) (key probe : Key) :
    (failKey policy now sofar key).2.find probe =
      if probe = key then (track now sofar.2 key).bind fun _ =>
        some (((sofar.2.find key).getD (Entry.fresh now)).fail policy now)
      else sofar.2.find probe := by
  rw [failKey]
  cases tracked : track now sofar.2 key with
  | none =>
    by_cases same : probe = key
    · subst same
      rw [if_pos rfl]
      rw [track] at tracked
      split at tracked
      · rename_i absent
        exact absent
      · cases tracked
    · rw [if_neg same]
  | some state =>
    simp only
    rw [Table.find_alter, find_track tracked]
    by_cases same : probe = key
    · rw [if_pos same, if_pos same, if_pos same]
      rfl
    · rw [if_neg same, if_neg same, if_neg same]

/-- The table when the turn comes to the user of a failed attempt. -/
def beforeUser (policy : ThrottlePolicy) (throttle : AuthThrottle) (now : Nat) (address : Option IpAddr) :
    Table Key Entry :=
  ((address.map Key.address).toList.foldl (failKey policy now) (0, sweepIfFull policy now throttle.state)).2

/-- There is an entry for the user then, or room for one. -/
def Admits (policy : ThrottlePolicy) (throttle : AuthThrottle) (now : Nat) (address : Option IpAddr) (user : String) :
    Prop :=
  (track now (beforeUser policy throttle now address) (.user user)).isSome = true

instance (user : String) : Decidable (Admits policy throttle now address user) :=
  inferInstanceAs (Decidable (_ = true))

/-- What a sweep leaves of what is known of a user. -/
def swept (policy : ThrottlePolicy) (throttle : AuthThrottle) (now : Nat) (user : String) : Option Entry :=
  (sweepIfFull policy now throttle.state).find (.user user)

/-- An entry is left as it is, or swept. -/
theorem swept_eq (policy : ThrottlePolicy) (throttle : AuthThrottle) (now : Nat) (user : String) :
    throttle.swept policy now user = throttle.ofUser user ∨
      throttle.swept policy now user = (throttle.ofUser user).bind (Entry.sweep policy now) := by
  rw [swept, sweepIfFull]
  split
  · exact .inr (Table.find_retain _ _ _)
  · exact .inl rfl

theorem find_beforeUser (policy : ThrottlePolicy) (throttle : AuthThrottle) (now : Nat) (address : Option IpAddr)
    (user : String) : (beforeUser policy throttle now address).find (.user user) = throttle.swept policy now user := by
  cases address with
  | none => rfl
  | some held => exact (find_failKey policy now _ _ _).trans (if_neg nofun)

/-- A failure is noted for its own user only, if there is room. -/
theorem ofUser_recordFailure (enabled : throttle.policy = some policy) (now : Nat) (address : Option IpAddr)
    (user other : String) :
    (throttle.recordFailure now address user).2.ofUser other =
      if other = user then
        if Admits policy throttle now address user then
          some (((throttle.swept policy now user).getD (Entry.fresh now)).fail policy now)
        else none
      else throttle.swept policy now other := by
  rw [recordFailure, enabled]
  simp only [ofUser]
  rw [foldl_keys, find_failKey]
  change (if Key.user other = Key.user user then
    (track now (beforeUser policy throttle now address) (.user user)).bind _ else
      (beforeUser policy throttle now address).find (.user other)) = _
  by_cases same : other = user
  · subst same
    rw [if_pos rfl, if_pos rfl]
    have known := find_beforeUser policy throttle now address other
    rw [beforeUser] at known
    rw [known]
    by_cases admits : Admits policy throttle now address other
    · rw [if_pos admits]
      obtain ⟨tracked, found⟩ := Option.isSome_iff_exists.mp admits
      rw [found]
      rfl
    · rw [if_neg admits]
      have absent := Option.not_isSome_iff_eq_none.mp admits
      rw [absent]
      rfl
  · rw [if_neg fun keys => same (Key.user.inj keys), if_neg same]
    exact find_beforeUser policy throttle now address other

theorem policy_recordFailure (throttle : AuthThrottle) (now : Nat) (address : Option IpAddr) (user : String) :
    (throttle.recordFailure now address user).2.policy = throttle.policy := by
  rw [recordFailure]
  split
  · rfl
  · rfl

theorem ofUser_recordSuccess (throttle : AuthThrottle) (address : Option IpAddr) {user other : String}
    (different : other ≠ user) : (throttle.recordSuccess address user).ofUser other = throttle.ofUser other := by
  rw [recordSuccess]
  split
  · rfl
  · rw [ofUser, foldl_keys, Table.find_erase, if_neg fun keys => different (Key.user.inj keys)]
    cases address with
    | none => rfl
    | some held => exact (Table.find_erase _ _ _).trans (if_neg nofun)

theorem policy_recordSuccess (throttle : AuthThrottle) (address : Option IpAddr) (user : String) :
    (throttle.recordSuccess address user).policy = throttle.policy := by
  rw [recordSuccess]
  split
  · rfl
  · rfl

end AuthThrottle
end Ferrite.Protocol
