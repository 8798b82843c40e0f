import Ferrite.Protocol.Throttle

/-!
# Locking a user out

What the throttle makes of any sequence of calls: a user who fails often enough within a
window is locked out wherever the next attempt comes from, provided the tracker has an
entry for the user when the first of these failures is recorded.
-/

namespace Ferrite.Protocol

open Logical Entry

/-- A call of the tracker. -/
inductive TrackerCall where
  | check (address : Option IpAddr) (user : String)
  | recordFailure (address : Option IpAddr) (user : String)
  | recordSuccess (address : Option IpAddr) (user : String)

/-- A call and the time it happens at. -/
structure Timed where
  time : Nat
  call : TrackerCall

namespace Timed

def isFailure (user : String) (timed : Timed) : Bool :=
  match timed.call with
  | .recordFailure _ other => other == user
  | _ => false

def isSuccess (user : String) (timed : Timed) : Bool :=
  match timed.call with
  | .recordSuccess _ other => other == user
  | _ => false

end Timed

/-- Time does not run backwards. -/
def InOrder {ι : Type} (time : ι → Nat) : Nat → List ι → Prop
  | _, [] => True
  | now, first :: rest => now ≤ time first ∧ InOrder time (time first) rest

namespace AuthThrottle

/-- The tracker after a call. -/
def after (throttle : AuthThrottle) (timed : Timed) : AuthThrottle :=
  match timed.call with
  | .check address user => (throttle.check timed.time address user).2
  | .recordFailure address user => (throttle.recordFailure timed.time address user).2
  | .recordSuccess address user => throttle.recordSuccess address user

def run (throttle : AuthThrottle) (calls : List Timed) : AuthThrottle := calls.foldl after throttle

/-- The time up to which a user is marked as locked. -/
def mark (throttle : AuthThrottle) (user : String) : Option Nat := (throttle.ofUser user).bind lockedUntil

/-- The call is a failure of the user that sets the lock. -/
def setsLock (user : String) (throttle : AuthThrottle) (timed : Timed) : Bool :=
  timed.isFailure user && (throttle.mark user).isNone && ((throttle.after timed).mark user).isSome

/-- The tracker, and when a failure of the user last set the lock. -/
def watch (user : String) (watched : AuthThrottle × Option Nat) (timed : Timed) : AuthThrottle × Option Nat :=
  (watched.1.after timed, if setsLock user watched.1 timed then some timed.time else watched.2)

/-- When a failure of the user last set the lock in the course of some calls. -/
def lastLock (user : String) (throttle : AuthThrottle) (calls : List Timed) : Option Nat :=
  (calls.foldl (watch user) (throttle, none)).2

private theorem fst_foldl_watch (user : String) (watched : AuthThrottle × Option Nat) (calls : List Timed) :
    (calls.foldl (watch user) watched).1 = watched.1.run calls := by
  induction calls generalizing watched with
  | nil => rfl
  | cons timed rest ih => exact ih _

section

variable {policy : ThrottlePolicy} {throttle : AuthThrottle} {user : String} {timed : Timed}

variable {entry : Entry} {now since : Nat}

private theorem policy_after (throttle : AuthThrottle) (timed : Timed) :
    (throttle.after timed).policy = throttle.policy := by
  rw [after]
  split
  · exact policy_check _ _ _ _
  · exact policy_recordFailure _ _ _ _
  · exact policy_recordSuccess _ _ _

private theorem policy_run (throttle : AuthThrottle) (calls : List Timed) :
    (throttle.run calls).policy = throttle.policy := by
  induction calls generalizing throttle with
  | nil => rfl
  | cons timed rest ih => exact (ih _).trans (policy_after throttle timed)

/-- What a call that is not about the user leaves, or what a failure starts from. -/
theorem swept_of_known (known : throttle.ofUser user = some entry)
    (kept : entry.sweep policy now = some (entry.prune now policy.window)) :
    ∃ left, throttle.swept policy now user = some left ∧ (left = entry ∨ left = entry.prune now policy.window) := by
  rcases throttle.swept_eq policy now user with same | swept
  · exact ⟨entry, same.trans known, .inl rfl⟩
  · rw [known] at swept
    exact ⟨_, swept.trans kept, .inr rfl⟩

/-- An entry that a sweep would keep is changed by a call as the call says. -/
theorem ofUser_after (enabled : throttle.policy = some policy) (known : throttle.ofUser user = some entry)
    (kept : entry.sweep policy timed.time = some (entry.prune timed.time policy.window))
    (noSuccess : timed.isSuccess user = false) : ∃ left, (left = entry ∨ left = entry.prune timed.time policy.window) ∧
      ((timed.isFailure user = false ∧ (throttle.after timed).ofUser user = some left) ∨
        (timed.isFailure user = false ∧ (throttle.after timed).ofUser user = some (entry.settle policy timed.time)) ∨
        (timed.isFailure user = true ∧ (throttle.after timed).ofUser user = some (left.fail policy timed.time))) := by
  obtain ⟨time, call⟩ := timed
  cases call with
  | check address other =>
    refine ⟨entry, .inl rfl, ?_⟩
    have found := ofUser_check enabled time address other user
    rw [known] at found
    by_cases same : user = other
    · exact .inr (.inl ⟨rfl, found.trans (if_pos same)⟩)
    · exact .inl ⟨rfl, found.trans (if_neg same)⟩
  | recordSuccess address other =>
    have different : user ≠ other := by
      rintro rfl
      exact absurd noSuccess (by simp [Timed.isSuccess])
    exact ⟨entry, .inl rfl, .inl ⟨rfl, (ofUser_recordSuccess throttle address different).trans known⟩⟩
  | recordFailure address other =>
    obtain ⟨left, swept, same⟩ := swept_of_known known kept
    refine ⟨left, same, ?_⟩
    have found := ofUser_recordFailure enabled time address other user
    by_cases self : user = other
    · subst self
      have admits : Admits policy throttle time address user := by
        have there := (find_beforeUser policy throttle time address user).trans swept
        rw [Admits, track, dif_neg (by rw [there]; exact Option.some_ne_none _)]
        rfl
      rw [if_pos rfl, if_pos admits, swept] at found
      exact .inr (.inr ⟨by simp [Timed.isFailure], found⟩)
    · rw [if_neg self, swept] at found
      refine .inl ⟨?_, found⟩
      simpa [Timed.isFailure] using Ne.symm self

/-- A lock that is not over survives every call but a success of the user. -/
theorem mark_after_of_locked {until_ : Nat} (enabled : throttle.policy = some policy)
    (locked : throttle.mark user = some until_) (notOver : timed.time < until_)
    (noSuccess : timed.isSuccess user = false) : (throttle.after timed).mark user = some until_ := by
  obtain ⟨entry, known, lockedUntil⟩ := Option.bind_eq_some_iff.mp locked
  obtain ⟨left, same, cases_⟩ := ofUser_after enabled known (sweep_of_locked lockedUntil notOver) noSuccess
  have leftLocked : left.lockedUntil = some until_ := by
    rcases same with rfl | rfl
    · exact lockedUntil
    · exact lockedUntil
  rw [mark]
  rcases cases_ with ⟨-, found⟩ | ⟨-, found⟩ | ⟨-, found⟩
  · rw [found]
    exact leftLocked
  · rw [found, Option.bind_some, lockedUntil_settle, lockedUntil, Option.filter_some]
    exact if_pos (decide_eq_true notOver)
  · rw [found, Option.bind_some, fail]
    simp only [leftLocked]
    rw [if_neg (by simp)]

/-- What a failure of a user starts from, if the user is not marked. -/
theorem start_unlocked (unmarked : throttle.mark user = none) (now : Nat) :
    ((throttle.swept policy now user).getD (fresh now)).lockedUntil = none := by
  cases swept : throttle.swept policy now user with
  | none => rfl
  | some entry =>
    rw [mark] at unmarked
    rcases throttle.swept_eq policy now user with same | kept
    · rw [← same, swept] at unmarked
      exact unmarked
    · rw [swept] at kept
      obtain ⟨before, known, left⟩ := Option.bind_eq_some_iff.mp kept.symm
      rw [known] at unmarked
      rw [Option.getD_some, sweep_eq_some left]
      exact unmarked

/-- The lock a failure sets is the lockout period from then on. -/
theorem mark_after_of_setsLock (enabled : throttle.policy = some policy) (sets : setsLock user throttle timed = true) :
    (throttle.after timed).mark user = some (timed.time + policy.lockout) := by
  rw [setsLock, Bool.and_eq_true, Bool.and_eq_true] at sets
  obtain ⟨⟨failure, unlocked⟩, locked⟩ := sets
  obtain ⟨time, call⟩ := timed
  cases call with
  | check address other => cases failure
  | recordSuccess address other => cases failure
  | recordFailure address other =>
    obtain rfl : other = user := by simpa [Timed.isFailure] using failure
    have found := ofUser_recordFailure enabled time address other other
    rw [if_pos rfl] at found
    have start : ((throttle.swept policy time other).getD (fresh time)).lockedUntil = none :=
      start_unlocked (Option.isNone_iff_eq_none.mp unlocked) time
    change ((throttle.recordFailure time address other).2.mark other).isSome = true at locked
    change (throttle.recordFailure time address other).2.mark other = _
    rw [mark, found] at locked ⊢
    split at locked
    · rename_i admits
      rw [if_pos admits]
      rw [Option.bind_some, lockedUntil_fail start] at locked ⊢
      split at locked
      · rename_i enough
        exact if_pos enough
      · cases locked
    · cases locked

/-- The failures since a time, as far as the tracker has them. -/
def failuresSince (since : Nat) (entry : Entry) : Nat := entry.failures.countP fun at_ => decide (since ≤ at_)

theorem failuresSince_prune {window : Nat} (past : since ≤ now) (covered : now < since + window) :
    failuresSince since (entry.prune now window) = failuresSince since entry := countP_prune past covered

theorem failuresSince_fail (past : since ≤ now) (covered : now < since + policy.window) :
    failuresSince since (entry.fail policy now) = failuresSince since entry + 1 := by
  have pruned : failuresSince since (entry.prune now policy.window) = failuresSince since entry :=
    failuresSince_prune past covered
  rw [failuresSince, fail, List.countP_append, List.countP_singleton, if_pos (decide_eq_true past)]
  exact congrArg (· + 1) pruned

theorem failuresSince_le_length (since : Nat) (entry : Entry) : failuresSince since entry ≤ entry.failures.length :=
  List.countP_le_length

/-- A user with failures since a time that the window covers is kept by a sweep. -/
theorem sweep_of_failuresSince (past : since ≤ now) (covered : now < since + policy.window)
    (failed : 0 < failuresSince since entry) : entry.sweep policy now = some (entry.prune now policy.window) := by
  refine sweep_of_failures fun none => ?_
  rw [← failuresSince_prune past covered, failuresSince, none] at failed
  exact absurd failed (Nat.lt_irrefl 0)

/-- A user who is tracked but not locked stays tracked, with every new failure counted,
until a failure sets the lock. -/
theorem ofUser_after_unlocked (enabled : throttle.policy = some policy) (known : throttle.ofUser user = some entry)
    (unlocked : entry.lockedUntil = none) (past : since ≤ timed.time) (covered : timed.time < since + policy.window)
    (failed : 0 < failuresSince since entry) (noSuccess : timed.isSuccess user = false) :
    ∃ next, (throttle.after timed).ofUser user = some next ∧
      failuresSince since next = failuresSince since entry + (if timed.isFailure user then 1 else 0) ∧
      (setsLock user throttle timed = true ∨
        next.lockedUntil = none ∧ (timed.isFailure user = true → failuresSince since next < policy.maxFailures)) := by
  obtain ⟨left, same, cases_⟩ := ofUser_after enabled known (sweep_of_failuresSince past covered failed) noSuccess
  have leftUnlocked : left.lockedUntil = none := by
    rcases same with rfl | rfl
    · exact unlocked
    · exact unlocked
  have leftFailures : failuresSince since left = failuresSince since entry := by
    rcases same with rfl | rfl
    · rfl
    · exact failuresSince_prune past covered
  rcases cases_ with ⟨other, found⟩ | ⟨other, found⟩ | ⟨failure, found⟩
  · refine ⟨left, found, ?_, .inr ⟨leftUnlocked, ?_⟩⟩
    · rw [other]
      exact leftFailures
    · rw [other]
      exact nofun
  · refine ⟨_, found, ?_, .inr ⟨?_, ?_⟩⟩
    · rw [other, failuresSince, failures_settle]
      exact failuresSince_prune past covered
    · rw [lockedUntil_settle, unlocked]
      rfl
    · rw [other]
      exact nofun
  · refine ⟨_, found, ?_, ?_⟩
    · rw [failure, failuresSince_fail past covered, leftFailures]
      rfl
    · cases locked : (left.fail policy timed.time).lockedUntil with
      | some until_ =>
        left
        have unmarked : throttle.mark user = none := by
          rw [mark, known]
          exact unlocked
        have marked : (throttle.after timed).mark user = some until_ := by
          rw [mark, found]
          exact locked
        rw [setsLock, failure, unmarked, marked]
        rfl
      | none =>
        refine .inr ⟨rfl, fun _ => ?_⟩
        have few : ¬ policy.maxFailures ≤ (left.fail policy timed.time).failures.length := by
          intro enough
          rw [lockedUntil_fail leftUnlocked, if_pos enough] at locked
          cases locked
        exact Nat.lt_of_le_of_lt (failuresSince_le_length _ _) (Nat.lt_of_not_le few)

end

/-! ## A user under attack -/

section

variable {policy : ThrottlePolicy} {user : String} {since : Nat}

/-- How far an attack has come: before a failure sets the lock the failures since its
start are counted and fewer than it takes; after that the lock is on until it is over. -/
def Progress (policy : ThrottlePolicy) (user : String) (since count now : Nat) (watched : AuthThrottle × Option Nat) :
    Prop :=
  watched.1.policy = some policy ∧
    match watched.2 with
    | none => ∃ entry, watched.1.ofUser user = some entry ∧ entry.lockedUntil = none ∧
        failuresSince since entry = count ∧ count < policy.maxFailures
    | some at_ => watched.1.mark user = some (at_ + policy.lockout) ∨ at_ + policy.lockout ≤ now

variable {count : Nat} {calls : List Timed} {throttle : AuthThrottle}

variable {now : Nat} {watched : AuthThrottle × Option Nat} {timed : Timed} {address : Option IpAddr}

private theorem progress_watch (positive : 0 < count) (progress : Progress policy user since count now watched)
    (later : now ≤ timed.time) (past : since ≤ now) (covered : timed.time < since + policy.window)
    (noSuccess : timed.isSuccess user = false) :
    Progress policy user since (count + if timed.isFailure user then 1 else 0) timed.time (watch user watched timed) := by
  obtain ⟨throttle, last⟩ := watched
  obtain ⟨enabled, progress⟩ := progress
  refine ⟨(policy_after throttle timed).trans enabled, ?_⟩
  rw [watch]
  cases sets : setsLock user throttle timed with
  | true => exact .inl (mark_after_of_setsLock enabled sets)
  | false =>
    cases last with
    | none =>
      obtain ⟨entry, known, unlocked, counted, few⟩ := progress
      obtain ⟨next, found, failures, outcome⟩ := ofUser_after_unlocked enabled known unlocked
        (Nat.le_trans past later) covered (counted ▸ positive) noSuccess
      obtain ⟨nextUnlocked, nextFew⟩ := outcome.resolve_left (by rw [sets]; exact nofun)
      refine ⟨next, found, nextUnlocked, failures.trans (by rw [counted]), ?_⟩
      cases failure : timed.isFailure user with
      | false => exact few
      | true =>
        have bound := nextFew failure
        rw [failures, counted, failure] at bound
        exact bound
    | some at_ =>
      rcases progress with locked | expired
      · by_cases notOver : timed.time < at_ + policy.lockout
        · exact .inl (mark_after_of_locked enabled locked notOver noSuccess)
        · exact .inr (Nat.le_of_not_lt notOver)
      · exact .inr (Nat.le_trans expired later)

private theorem progress_run (positive : 0 < count) (progress : Progress policy user since count now watched)
    (ordered : InOrder Timed.time now calls) (past : since ≤ now)
    (covered : ∀ timed ∈ calls, timed.time < since + policy.window)
    (noSuccess : ∀ timed ∈ calls, timed.isSuccess user = false) :
    ∃ last, (last = now ∨ ∃ timed ∈ calls, timed.time = last) ∧
      Progress policy user since (count + calls.countP (Timed.isFailure user)) last (calls.foldl (watch user) watched) := by
  induction calls generalizing count now watched with
  | nil => exact ⟨now, .inl rfl, progress⟩
  | cons timed rest ih =>
    have step := progress_watch positive progress ordered.1 past (covered timed List.mem_cons_self)
      (noSuccess timed List.mem_cons_self)
    obtain ⟨last, listed, done⟩ := ih (Nat.add_pos_left positive _) step ordered.2 (Nat.le_trans past ordered.1)
      (fun other member => covered other (List.mem_cons_of_mem _ member))
      fun other member => noSuccess other (List.mem_cons_of_mem _ member)
    refine ⟨last, ?_, ?_⟩
    · rcases listed with rfl | ⟨other, member, same⟩
      · exact .inr ⟨timed, List.mem_cons_self, rfl⟩
      · exact .inr ⟨other, List.mem_cons_of_mem _ member, same⟩
    · rw [List.countP_cons, Nat.add_comm (rest.countP _), ← Nat.add_assoc]
      exact done

/-- The first failure of an attack, when the tracker has an entry for the user or room
for one and has not marked the user. -/
theorem progress_start (enabled : throttle.policy = some policy) (unmarked : throttle.mark user = none)
    (admits : throttle.Admits policy since address user) (covered : 0 < policy.window) : ∃ count, 0 < count ∧
      Progress policy user since count since (watch user (throttle, none) ⟨since, .recordFailure address user⟩) := by
  have failure : Timed.isFailure user ⟨since, .recordFailure address user⟩ = true := by simp [Timed.isFailure]
  have found : (throttle.after ⟨since, .recordFailure address user⟩).ofUser user =
      some (((throttle.swept policy since user).getD (fresh since)).fail policy since) := by
    rw [after, ofUser_recordFailure enabled, if_pos rfl, if_pos admits]
  have start : ((throttle.swept policy since user).getD (fresh since)).lockedUntil = none :=
    start_unlocked unmarked since
  generalize (throttle.swept policy since user).getD (fresh since) = entry at found start
  have counted : failuresSince since (entry.fail policy since) = failuresSince since entry + 1 :=
    failuresSince_fail (Nat.le_refl _) (by omega)
  refine ⟨failuresSince since entry + 1, Nat.succ_pos _, (policy_after _ _).trans enabled, ?_⟩
  rw [watch]
  cases sets : setsLock user throttle ⟨since, .recordFailure address user⟩ with
  | true => exact .inl (mark_after_of_setsLock enabled sets)
  | false =>
    have unlocked : (entry.fail policy since).lockedUntil = none := by
      rw [setsLock, failure, unmarked] at sets
      have unmarkedAfter := Option.isNone_iff_eq_none.mp (by simpa using sets)
      rw [mark, found] at unmarkedAfter
      exact unmarkedAfter
    refine ⟨_, found, unlocked, counted, ?_⟩
    rw [lockedUntil_fail start] at unlocked
    split at unlocked
    · cases unlocked
    · rename_i few
      rw [← counted]
      exact Nat.lt_of_le_of_lt (failuresSince_le_length _ _) (Nat.lt_of_not_le few)

/-- While a lock is on, calls do not take it off. -/
theorem mark_run_of_locked {until_ : Nat} (enabled : throttle.policy = some policy)
    (locked : throttle.mark user = some until_) (notOver : ∀ timed ∈ calls, timed.time < until_)
    (noSuccess : ∀ timed ∈ calls, timed.isSuccess user = false) : (throttle.run calls).mark user = some until_ := by
  induction calls generalizing throttle with
  | nil => exact locked
  | cons timed rest ih =>
    have step := mark_after_of_locked enabled locked (notOver timed List.mem_cons_self)
      (noSuccess timed List.mem_cons_self)
    exact ih ((policy_after throttle timed).trans enabled) step
      (fun other member => notOver other (List.mem_cons_of_mem _ member))
      fun other member => noSuccess other (List.mem_cons_of_mem _ member)

/-- A user who never got an entry is not locked before the failures counted since then
are enough. -/
def Uncounted (throttle : AuthThrottle) (user : String) (count : Nat) : Prop :=
  ∀ entry, throttle.ofUser user = some entry → entry.lockedUntil = none ∧ entry.failures.length ≤ count

private theorem length_prune_le (entry : Entry) (now window : Nat) :
    (entry.prune now window).failures.length ≤ entry.failures.length :=
  (List.dropWhile_sublist _).length_le

private theorem length_failures_fail_le (entry : Entry) (now : Nat) :
    (entry.fail policy now).failures.length ≤ entry.failures.length + 1 := by
  rw [fail, List.length_append]
  exact Nat.add_le_add_right (length_prune_le _ _ _) 1

private theorem uncounted_swept (uncounted : throttle.Uncounted user count) (now : Nat) {entry : Entry}
    (swept : throttle.swept policy now user = some entry) :
    entry.lockedUntil = none ∧ entry.failures.length ≤ count := by
  rcases throttle.swept_eq policy now user with same | kept
  · exact uncounted entry (same.symm.trans swept)
  · rw [swept] at kept
    obtain ⟨before, known, left⟩ := Option.bind_eq_some_iff.mp kept.symm
    obtain ⟨unlocked, few⟩ := uncounted before known
    rw [sweep_eq_some left]
    exact ⟨unlocked, Nat.le_trans (length_prune_le _ _ _) few⟩

private theorem uncounted_after (enabled : throttle.policy = some policy) (uncounted : throttle.Uncounted user count)
    (few : (count + if timed.isFailure user then 1 else 0) < policy.maxFailures)
    (noSuccess : timed.isSuccess user = false) :
    (throttle.after timed).Uncounted user (count + if timed.isFailure user then 1 else 0) := by
  obtain ⟨time, call⟩ := timed
  intro entry found
  cases call with
  | check address other =>
    change (throttle.check time address other).2.ofUser user = some entry at found
    rw [ofUser_check enabled] at found
    split at found
    · obtain ⟨before, known, rfl⟩ := Option.map_eq_some_iff.mp found
      obtain ⟨unlocked, short⟩ := uncounted before known
      rw [lockedUntil_settle, unlocked, failures_settle]
      exact ⟨rfl, Nat.le_trans (length_prune_le _ _ _) short⟩
    · exact uncounted entry found
  | recordSuccess address other =>
    have different : user ≠ other := by
      rintro rfl
      exact absurd noSuccess (by simp [Timed.isSuccess])
    exact uncounted entry ((ofUser_recordSuccess throttle address different).symm.trans found)
  | recordFailure address other =>
    change (throttle.recordFailure time address other).2.ofUser user = some entry at found
    rw [ofUser_recordFailure enabled] at found
    by_cases self : user = other
    · subst self
      have failure : Timed.isFailure user ⟨time, .recordFailure address user⟩ = true := by simp [Timed.isFailure]
      rw [failure] at few ⊢
      rw [if_pos rfl] at found
      split at found
      · cases found
        have start : ((throttle.swept policy time user).getD (fresh time)).lockedUntil = none ∧
            ((throttle.swept policy time user).getD (fresh time)).failures.length ≤ count := by
          cases swept : throttle.swept policy time user with
          | none => exact ⟨rfl, Nat.zero_le _⟩
          | some entry => exact uncounted_swept uncounted time swept
        generalize (throttle.swept policy time user).getD (fresh time) = before at start
        obtain ⟨unlocked, short⟩ := start
        have next : (before.fail policy time).failures.length ≤ count + 1 :=
          Nat.le_trans (length_failures_fail_le _ _) (Nat.add_le_add_right short 1)
        refine ⟨?_, next⟩
        rw [lockedUntil_fail unlocked]
        exact if_neg (Nat.not_le_of_lt (Nat.lt_of_le_of_lt next few))
      · cases found
    · rw [if_neg self] at found
      obtain ⟨unlocked, short⟩ := uncounted_swept uncounted time found
      exact ⟨unlocked, Nat.le_trans short (Nat.le_add_right _ _)⟩

private theorem uncounted_run (enabled : throttle.policy = some policy) (uncounted : throttle.Uncounted user count)
    (few : count + calls.countP (Timed.isFailure user) < policy.maxFailures)
    (noSuccess : ∀ timed ∈ calls, timed.isSuccess user = false) :
    (throttle.run calls).Uncounted user (count + calls.countP (Timed.isFailure user)) := by
  induction calls generalizing throttle count with
  | nil => exact uncounted
  | cons timed rest ih =>
    rw [List.countP_cons, Nat.add_comm (rest.countP _), ← Nat.add_assoc] at few ⊢
    have step := uncounted_after enabled uncounted (Nat.lt_of_le_of_lt (Nat.le_add_right _ _) few)
      (noSuccess timed List.mem_cons_self)
    exact ih ((policy_after throttle timed).trans enabled) step few
      fun other member => noSuccess other (List.mem_cons_of_mem _ member)

/-- A user whose first failure finds no room is not locked out by the failures that
should have been enough. -/
theorem check_untracked {start : Nat} {rest : List Timed} (enabled : throttle.policy = some policy)
    (refused : ¬ throttle.Admits policy start address user) (noSuccess : ∀ timed ∈ rest, timed.isSuccess user = false)
    (few : rest.countP (Timed.isFailure user) < policy.maxFailures) (time : Nat) :
    ((throttle.run (⟨start, .recordFailure address user⟩ :: rest)).check time none user).1 = .ok () := by
  have absent : (throttle.after ⟨start, .recordFailure address user⟩).Uncounted user 0 := by
    intro entry found
    rw [after, ofUser_recordFailure enabled, if_pos rfl, if_neg refused] at found
    cases found
  have uncounted := uncounted_run ((policy_after throttle _).trans enabled) absent (by omega) noSuccess
  refine check_admitted ((policy_run throttle _).trans enabled) fun entry known => ?_
  refine remaining_eq_zero fun until_ locked => ?_
  rw [(uncounted entry known).1] at locked
  cases locked

end

/-- Failures of an unmarked user within one window, as many as the policy allows, lock the
user out from every address until the lockout period is over, if the tracker has an entry
for the user, or room for one, when the first of them is recorded. If it does not, and
there are no more failures than that, the user is not locked out at all. -/
theorem user_is_locked_out_if_tracked {policy : ThrottlePolicy} {throttle : AuthThrottle} {user : String}
    {address : Option IpAddr} {start : Nat} {rest : List Timed} (enabled : throttle.policy = some policy)
    (unmarked : throttle.mark user = none) (ordered : InOrder Timed.time start rest)
    (within : ∀ timed ∈ rest, timed.time < start + policy.window) (window : 0 < policy.window)
    (noSuccess : ∀ timed ∈ rest, timed.isSuccess user = false)
    (enough : policy.maxFailures ≤ 1 + rest.countP (Timed.isFailure user)) :
    let calls := ⟨start, .recordFailure address user⟩ :: rest
    (throttle.Admits policy start address user → ∃ locked, lastLock user throttle calls = some locked ∧
      ∀ later from_ time, (∀ timed ∈ later, timed.time ≤ time ∧ timed.isSuccess user = false) →
        (∀ timed ∈ calls, timed.time ≤ time) → time < locked + policy.lockout →
        ∃ remaining, (((throttle.run calls).run later).check time from_ user).1 = .error remaining) ∧
    (¬ throttle.Admits policy start address user → policy.maxFailures = 1 + rest.countP (Timed.isFailure user) →
      ∀ time, ((throttle.run calls).check time none user).1 = .ok ()) := by
  intro calls
  constructor
  · intro admits
    obtain ⟨count, positive, progress⟩ := progress_start enabled unmarked admits window
    obtain ⟨last, listed, done⟩ := progress_run positive progress ordered (Nat.le_refl _) within noSuccess
    change Progress policy user start _ last (calls.foldl (watch user) (throttle, none)) at done
    obtain ⟨enabledAfter, outcome⟩ := done
    rw [fst_foldl_watch] at enabledAfter outcome
    cases lock : (calls.foldl (watch user) (throttle, none)).2 with
    | none =>
      rw [lock] at outcome
      obtain ⟨entry, -, -, -, few⟩ := outcome
      omega
    | some locked =>
      rw [lock] at outcome
      refine ⟨locked, lock, fun later from_ time quiet past notOver => ?_⟩
      have reached : last ≤ time := by
        rcases listed with rfl | ⟨timed, member, rfl⟩
        · exact past _ List.mem_cons_self
        · exact past timed (List.mem_cons_of_mem _ member)
      have marked : ((throttle.run calls).run later).mark user = some (locked + policy.lockout) :=
        mark_run_of_locked enabledAfter (outcome.resolve_right (by omega))
          (fun timed member => Nat.lt_of_le_of_lt (quiet timed member).1 notOver)
          fun timed member => (quiet timed member).2
      obtain ⟨entry, known, lockedUntil⟩ := Option.bind_eq_some_iff.mp marked
      exact check_refused ((policy_run _ later).trans enabledAfter) known
        (remaining_pos lockedUntil notOver) from_
  · intro refused exactly time
    exact check_untracked enabled refused noSuccess (by omega) time

theorem second_failure_locks_out : ∃ locked,
    lastLock "admin" (new ⟨2, 60, 300, 0, 0⟩) [⟨5, .recordFailure none "admin"⟩, ⟨9, .recordFailure none "admin"⟩] =
      some locked ∧
    ∃ remaining, (((new ⟨2, 60, 300, 0, 0⟩).run
      [⟨5, .recordFailure none "admin"⟩, ⟨9, .recordFailure none "admin"⟩]).check 10 (some (.v4 7)) "admin").1 =
        .error remaining := by
  have locks := (@user_is_locked_out_if_tracked ⟨2, 60, 300, 0, 0⟩ (new ⟨2, 60, 300, 0, 0⟩) "admin" none 5
    [⟨9, .recordFailure none "admin"⟩] rfl rfl ⟨by decide, trivial⟩ (by decide) (by decide) (by decide)
    (by decide)).1 (by decide)
  obtain ⟨locked, last, refuses⟩ := locks
  obtain rfl : locked = 9 := Option.some.inj (last.symm.trans (by decide +kernel))
  exact ⟨9, last, refuses [] (some (.v4 7)) 10 nofun (by decide) (by decide)⟩

/-! ## A full table -/

/-- Names that differ. -/
def nameOf (index : Nat) : String := String.ofList (List.replicate index (Char.ofNat 120))

private theorem nameOf_injective {first second : Nat} (same : nameOf first = nameOf second) : first = second := by
  have lists := String.ofList_injective same
  have lengths := congrArg List.length lists
  rwa [List.length_replicate, List.length_replicate] at lengths

/-- A user who fails once. -/
def stray (index : Nat) : Timed := ⟨0, .recordFailure none (nameOf index)⟩

/-- So many users who fail once, all at the same time. -/
def crowd (count : Nat) : List Timed := (List.range count).map stray

/-- The tracker after them: one entry for each, and none for anybody else. -/
structure Crowded (throttle : AuthThrottle) (count : Nat) : Prop where
  enabled : throttle.policy = some .default
  size : throttle.state.size = count
  entries : ∀ entry ∈ throttle.state.entries, entry.2 = ⟨[0], none, 0⟩
  others : ∀ name, (∀ index < count, name ≠ nameOf index) → throttle.ofUser name = none

/-- A sweep finds nothing to drop. -/
theorem Crowded.sweepIfFull {throttle : AuthThrottle} {count : Nat} (crowded : Crowded throttle count) :
    sweepIfFull .default 0 throttle.state = throttle.state := by
  rw [AuthThrottle.sweepIfFull]
  split
  · refine Table.retain_eq_self fun entry member => ?_
    rw [crowded.entries entry member]
    rfl
  · rfl

private theorem crowded_stray {throttle : AuthThrottle} {count : Nat} (crowded : Crowded throttle count)
    (room : count < maxTrackedSources) : Crowded (throttle.after (stray count)) (count + 1) := by
  have absent : throttle.state.find (.user (nameOf count)) = none :=
    crowded.others _ fun index below same => absurd (nameOf_injective same) (by omega)
  have tracked : track 0 throttle.state (.user (nameOf count)) =
      some (throttle.state.add (.user (nameOf count)) (fresh 0) absent) := by
    rw [track, dif_pos absent, if_neg (by rw [crowded.size]; omega)]
  have after : (throttle.after (stray count)).state =
      (throttle.state.add (.user (nameOf count)) (fresh 0) absent).alter (.user (nameOf count))
        (fail .default 0) := by
    rw [AuthThrottle.after, stray]
    simp only [recordFailure, crowded.enabled]
    rw [foldl_keys]
    change (failKey .default 0 (0, AuthThrottle.sweepIfFull .default 0 throttle.state) (.user (nameOf count))).2 = _
    rw [crowded.sweepIfFull, failKey, tracked]
  refine ⟨(policy_after _ _).trans crowded.enabled, ?_, ?_, ?_⟩
  · rw [after, Table.size_alter, Table.size_add, crowded.size]
  · rw [after]
    intro entry member
    obtain ⟨before, listed, rfl⟩ := List.mem_map.mp member
    rcases List.mem_cons.mp listed with rfl | old
    · simp only [if_true]
      rfl
    · have different : before.1 ≠ .user (nameOf count) := by
        intro same
        have found := (mem_keys_iff throttle.state.entries _).mp (List.mem_map_of_mem old)
        rw [same] at found
        rw [show throttle.state.entries.lookup (.user (nameOf count)) = none from absent] at found
        cases found
      rw [if_neg different]
      exact crowded.entries before old
  · intro name others
    have different : Key.user name ≠ .user (nameOf count) :=
      fun same => others count (Nat.lt_succ_self _) (Key.user.inj same)
    rw [ofUser, after, Table.find_alter, if_neg different, Table.find_add, if_neg different]
    exact crowded.others name fun index below => others index (Nat.lt_succ_of_lt below)

private theorem crowded_crowd {count : Nat} (room : count ≤ maxTrackedSources) :
    Crowded ((new .default).run (crowd count)) count := by
  induction count with
  | zero => exact ⟨rfl, rfl, nofun, fun _ _ => rfl⟩
  | succ count ih =>
    have last : (new .default).run (crowd (count + 1)) = ((new .default).run (crowd count)).after (stray count) := by
      rw [run, run, crowd, crowd, List.range_succ, List.map_append, List.foldl_append]
      rfl
    rw [last]
    exact crowded_stray (ih (Nat.le_of_succ_le room)) room

/-- Ten thousand strangers who each fail once keep the tracker from noticing that anybody
else fails. -/
theorem full_tracker_locks_nobody_out : ((((new .default).run (crowd maxTrackedSources)).run
      (List.replicate 5 ⟨0, .recordFailure none "admin"⟩)).check 0 none "admin").1 = .ok () := by
  have crowded := crowded_crowd (Nat.le_refl maxTrackedSources)
  generalize (new .default).run (crowd maxTrackedSources) = throttle at crowded
  have absent : throttle.state.find (.user "admin") = none := by
    refine crowded.others _ fun index _ same => ?_
    have letters : "admin".toList = List.replicate index (Char.ofNat 120) := by
      rw [same, nameOf, String.toList_ofList]
    have first : Char.ofNat 97 ∈ List.replicate index (Char.ofNat 120) := by
      rw [← letters]
      decide
    exact absurd (List.eq_of_mem_replicate first) (by decide)
  have refused : ¬ throttle.Admits .default 0 none "admin" := by
    rw [Admits, beforeUser]
    change ¬ (track 0 (AuthThrottle.sweepIfFull .default 0 throttle.state) (.user "admin")).isSome = true
    rw [crowded.sweepIfFull, track, dif_pos absent, if_pos (Nat.le_of_eq crowded.size.symm)]
    exact Bool.false_ne_true
  exact check_untracked crowded.enabled refused (by decide) (by decide) 0

end AuthThrottle
end Ferrite.Protocol
