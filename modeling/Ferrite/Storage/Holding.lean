import Ferrite.Storage.CommitOrder
import Ferrite.Storage.Effects

/-!
# What a chain may turn out to hold

Which versions of a chain are live depends on how the open transactions end. A
pair of predicates, who counts as a creator and who counts as a deleter, fixes one
point of view; `Holds` is the set of values a chain holds under it. Pruning and
deleting only take values away, and an update adds at most the new one.
-/

namespace Ferrite.Storage

variable {α : Type} {creates deletes : TxnId → Bool} {chain : List (Version α)} {value : α}

/-- Some version with this value has a creator that counts and no deleter that does. -/
def Holds (creates deletes : TxnId → Bool) (chain : List (Version α)) (value : α) : Prop := ∃ version ∈ chain,
    creates version.xmin = true ∧ deletes version.xmax = false ∧ version.payload = value

theorem not_holds_nil : ¬Holds creates deletes ([] : List (Version α)) value := by
  rintro ⟨version, member, -⟩
  simp at member

theorem Holds.mono {creates' deletes' : TxnId → Bool} (holds : Holds creates deletes chain value)
    (wider : ∀ version ∈ chain, creates version.xmin = true → creates' version.xmin = true)
    (milder : ∀ version ∈ chain, deletes version.xmax = false → deletes' version.xmax = false) :
    Holds creates' deletes' chain value := by
  obtain ⟨version, member, created, notDeleted, isValue⟩ := holds
  exact ⟨version, member, wider version member created, milder version member notDeleted, isValue⟩

/-- Pruning takes values away, if aborted transactions do not count as deleters. -/
theorem Holds.of_prune {engine : Engine} (abortedMild : ∀ xid, engine.isAborted xid = true → deletes xid = false)
    (holds : Holds creates deletes (engine.prune chain) value) : Holds creates deletes chain value := by
  obtain ⟨version, member, created, notDeleted, isValue⟩ := holds
  rw [Engine.prune, Engine.pruneBelow_eq] at member
  obtain ⟨stored, inChain, -, rfl⟩ := mem_cleanBy (List.mem_of_mem_filter member)
  refine ⟨stored, inChain, created, ?_, isValue⟩
  cases aborted : engine.isAborted stored.xmax with
  | true => exact abortedMild _ aborted
  | false => simpa [aborted] using notDeleted

section

variable {txn : TxnId} {newest : Version α} {older : List (Version α)}

theorem Holds.of_markDeleted (noneMild : deletes noTxn = false) (live : newest.xmax = noTxn)
    (holds : Holds creates deletes (Engine.markDeleted txn (newest :: older)) value) :
    Holds creates deletes (newest :: older) value := by
  obtain ⟨version, member, created, notDeleted, isValue⟩ := holds
  rcases List.mem_cons.mp member with rfl | inOlder
  · exact ⟨newest, List.mem_cons_self, created, live ▸ noneMild, isValue⟩
  · exact ⟨version, List.mem_cons_of_mem _ inOlder, created, notDeleted, isValue⟩

/-- An update adds at most the new value, and only if its writer counts. -/
theorem Holds.of_supersede (noneMild : deletes noTxn = false) (live : newest.xmax = noTxn) {new : α}
    (holds : Holds creates deletes (Engine.supersede txn new (newest :: older)) value) :
    (value = new ∧ creates txn = true) ∨ Holds creates deletes (newest :: older) value := by
  rw [Engine.supersede] at holds
  split at holds
  · rename_i own
    obtain ⟨version, member, created, notDeleted, isValue⟩ := holds
    rcases List.mem_cons.mp member with rfl | inOlder
    · exact Or.inl ⟨isValue.symm, own ▸ created⟩
    · exact Or.inr ⟨version, List.mem_cons_of_mem _ inOlder, created, notDeleted, isValue⟩
  · obtain ⟨version, member, created, notDeleted, isValue⟩ := holds
    rcases List.mem_cons.mp member with rfl | inRest
    · exact Or.inl ⟨isValue.symm, created⟩
    · exact Or.inr (Holds.of_markDeleted noneMild live ⟨version, inRest, created, notDeleted, isValue⟩)

end

theorem Holds.of_live {txn : TxnId} {new : α} (holds : Holds creates deletes [Version.live txn new] value) :
    value = new ∧ creates txn = true := by
  obtain ⟨version, member, created, -, isValue⟩ := holds
  obtain rfl := List.mem_singleton.mp member
  exact ⟨isValue.symm, created⟩

/-! ## Everything that may still turn out live -/

namespace Engine

variable {engine : Engine}

/-- The delete of a version is final: its deleter committed and is not running. -/
def finalDeleter (engine : Engine) (xid : TxnId) : Bool :=
  decide (xid ≠ noTxn) && !engine.isAborted xid && !engine.isActive xid

/-- A value some outcome of the open transactions leaves live. -/
def MayHold (engine : Engine) (chain : List (Version α)) (value : α) : Prop :=
  Holds (fun xid => !engine.isAborted xid) engine.finalDeleter chain value

theorem finalDeleter_noTxn (engine : Engine) : engine.finalDeleter noTxn = false := by simp [finalDeleter]

theorem finalDeleter_aborted {xid : TxnId} (aborted : engine.isAborted xid = true) :
    engine.finalDeleter xid = false := by
  simp [finalDeleter, aborted]

/-- A single version nobody deleted is the one a constraint check reckons with. -/
theorem constraintVersion_of_single {chain : List (Version Row)} {deletes : TxnId → Bool}
    {value : Row}
    (single : chain = [] ∨ ∃ creator held, chain = [Version.live creator held])
    (holds : Holds (fun xid => !engine.isAborted xid) deletes chain value) :
    engine.constraintVersion txn chain = some value := by
  rcases single with rfl | ⟨creator, held, rfl⟩
  · exact absurd holds not_holds_nil
  · obtain ⟨rfl, alive⟩ := holds.of_live
    have creatorAlive : engine.isAborted creator = false := by simpa using alive
    simp [constraintVersion, Version.live, creatorAlive]

/-- What the unique check reckons with may turn out live. -/
theorem mayHold_of_constraintVersion {txn : TxnId} {chain : List (Version α)} {value : α}
    (found : engine.constraintVersion txn chain = some value) : engine.MayHold chain value := by
  induction chain with
  | nil => simp [constraintVersion] at found
  | cons version older ih =>
    rw [constraintVersion] at found
    split at found
    · obtain ⟨stored, member, rest⟩ := ih found
      exact ⟨stored, List.mem_cons_of_mem _ member, rest⟩
    · rename_i creatorAlive
      split at found
      · rename_i undeleted
        refine ⟨version, List.mem_cons_self, by simpa using creatorAlive, ?_, by simpa using found⟩
        rcases Bool.or_eq_true_iff.mp undeleted with none | aborted
        · rw [of_decide_eq_true none]
          exact finalDeleter_noTxn engine
        · exact finalDeleter_aborted aborted
      · split at found
        · simp at found
        · rename_i running
          refine ⟨version, List.mem_cons_self, by simpa using creatorAlive, ?_, by simpa using found⟩
          simp only [Bool.or_eq_true, Bool.not_eq_true', not_or, Bool.not_eq_false] at running
          simp [finalDeleter, running.2]

/-! ## Outcomes only become more final -/

theorem isAborted_iff (engine : Engine) (xid : TxnId) : engine.isAborted xid = true ↔
      xid ≠ noTxn ∧ engine.isActive xid = false ∧ engine.isCommitted xid = false := by
  unfold isAborted
  by_cases none : xid = noTxn
  · simp [none]
  · cases engine.isActive xid <;> simp [none]

theorem finalDeleter_iff (engine : Engine) (xid : TxnId) : engine.finalDeleter xid = true ↔
      xid ≠ noTxn ∧ engine.isActive xid = false ∧ engine.isCommitted xid = true := by
  unfold finalDeleter isAborted
  by_cases none : xid = noTxn
  · simp [none]
  · cases engine.isActive xid <;> simp [none]

namespace TxnStep

variable {op : Op} {before after : Engine} {xid : TxnId}

theorem isActive_of_issued (effect : TxnStep op before after) (issued : xid < before.nextTxnId)
    (closed : before.isActive xid = false) : after.isActive xid = false := by
  cases opened : after.active.lookup xid with
  | none => simp [isActive, opened]
  | some state =>
    rcases effect.opened xid state opened with ⟨new, -⟩ | ⟨old, found, -⟩
    · exact absurd new (Nat.ne_of_lt issued)
    · simp [isActive, found] at closed

private theorem isAborted_mono (effect : TxnStep op before after) (issued : xid < before.nextTxnId)
    (aborted : before.isAborted xid = true) : after.isAborted xid = true := by
  obtain ⟨real, closed, clear⟩ := (isAborted_iff before xid).mp aborted
  refine (isAborted_iff after xid).mpr ⟨real, effect.isActive_of_issued issued closed, ?_⟩
  cases committed : after.isCommitted xid with
  | false => rfl
  | true =>
    rcases effect.committed xid committed with set | ⟨running, -⟩
    · simp [clear] at set
    · simp [closed] at running

private theorem finalDeleter_mono (effect : TxnStep op before after) (issued : xid < before.nextTxnId)
    (final : before.finalDeleter xid = true) : after.finalDeleter xid = true := by
  obtain ⟨real, closed, set⟩ := (finalDeleter_iff before xid).mp final
  exact (finalDeleter_iff after xid).mpr ⟨real, effect.isActive_of_issued issued closed, effect.keeps xid set⟩

/-- What may turn out live after a step might have before. -/
theorem mayHold_anti (effect : TxnStep op before after) {chain : List (Version α)} {value : α}
    (issued : ∀ version ∈ chain, version.xmin < before.nextTxnId ∧ version.xmax < before.nextTxnId)
    (mayHold : after.MayHold chain value) : before.MayHold chain value := by
  refine Holds.mono mayHold ?_ ?_
  · intro version member alive
    cases aborted : before.isAborted version.xmin with
    | false => rfl
    | true => simp [effect.isAborted_mono (issued version member).1 aborted] at alive
  · intro version member notFinal
    cases final : before.finalDeleter version.xmax with
    | false => rfl
    | true => simp [effect.finalDeleter_mono (issued version member).2 final] at notFinal

end TxnStep
end Engine
end Ferrite.Storage
