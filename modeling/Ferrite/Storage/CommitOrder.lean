import Ferrite.Storage.Visibility

/-!
# Version chains against a commit order

The engine never records in which order transactions committed. A `CommitOrder`
supplies that order from outside, and this module says what a chain looks like
against it once the traces of aborted transactions are removed: every id in it
is committed or belongs to the one transaction with an open write, and each
version was deleted before the next one was created.
-/

namespace Ferrite.Storage

variable {α : Type}

/-- The commit sequence number of every committed transaction. -/
abbrev CommitOrder := TxnId → Option Nat

namespace CommitOrder

/-- Committed at or before a sequence number. -/
def sees (order : CommitOrder) (seq : Nat) (xid : TxnId) : Bool := (order xid).any fun at_ => decide (at_ ≤ seq)

/-- The order after `txn` committed at `seq`. -/
def extend (order : CommitOrder) (txn : TxnId) (seq : Nat) : CommitOrder :=
  fun xid => if xid = txn then some seq else order xid

variable {order : CommitOrder} {seq : Nat} {xid : TxnId}

/-- Seen is what committed by then. -/
theorem sees_iff : order.sees seq xid = true ↔ ∃ at_, order xid = some at_ ∧ at_ ≤ seq := by
  cases found : order xid <;> simp [sees, found]

/-- A transaction that has not committed is not seen. -/
theorem sees_of_none (open_ : order xid = none) : order.sees seq xid = false := by simp [sees, open_]

theorem extend_self (order : CommitOrder) (txn : TxnId) (seq : Nat) : order.extend txn seq txn = some seq := by
  simp [extend]

theorem extend_of_ne {txn : TxnId} (other : xid ≠ txn) : order.extend txn seq xid = order xid := by
  simp [extend, other]

/-- A later commit is not seen at an earlier sequence number. -/
theorem sees_extend_of_lt {txn : TxnId} {now : Nat} (open_ : order txn = none) (earlier : now < seq) (xid : TxnId) :
    (order.extend txn seq).sees now xid = order.sees now xid := by
  by_cases same : xid = txn
  · subst same
    simp [sees, extend_self, open_, earlier]
  · simp [sees, extend_of_ne same]

end CommitOrder

/-! ## Removing the traces of dead transactions -/

/-- A chain without the versions dead transactions created and without the marks
of dead deleters. -/
def cleanBy (dead : TxnId → Bool) : List (Version α) → List (Version α)
  | [] => []
  | version :: older =>
    if dead version.xmin then cleanBy dead older
    else
      { version with xmax := if dead version.xmax then noTxn else version.xmax } ::
        cleanBy dead older

/-- Versions a pruning pass drops although no aborted transaction is involved. -/
def Engine.expired (engine : Engine) (horizon : TxnId) (version : Version α) : Bool :=
  version.xmax ≠ noTxn && decide (version.xmax < horizon) && engine.isCommitted version.xmax

variable {dead : TxnId → Bool} {chain : List (Version α)} {txn : TxnId}

@[simp] theorem Engine.isAborted_noTxn (engine : Engine) : engine.isAborted noTxn = false := by simp [isAborted]

/-- Pruning removes the traces of aborted transactions, then what has expired. -/
theorem Engine.pruneBelow_eq (engine : Engine) (horizon : TxnId) (chain : List (Version α)) :
    engine.pruneBelow horizon chain =
      (cleanBy engine.isAborted chain).filter fun version => !engine.expired horizon version := by
  induction chain with
  | nil => rfl
  | cons version older ih =>
    rw [pruneBelow, cleanBy]
    by_cases creatorDead : engine.isAborted version.xmin = true
    · simp [creatorDead, ih]
    · by_cases deleterDead : engine.isAborted version.xmax = true
      · have deleted : version.xmax ≠ noTxn := by
          intro none
          simp [none] at deleterDead
        simp [creatorDead, deleterDead, deleted, ih, expired]
      · simp only [creatorDead, deleterDead, Bool.and_false, Bool.false_eq_true, if_false, List.filter_cons, ih]
        change (if engine.expired horizon version = true then _ else _) = _
        cases engine.expired horizon version <;> rfl

/-- Dead transactions are seen by nobody, so their traces do not change a read. -/
theorem selectVersion_cleanBy {sees : TxnId → Bool} (unseen : ∀ xid, dead xid → !sees xid)
    (noneUnseen : sees noTxn = false) (chain : List (Version α)) :
    selectVersion sees (cleanBy dead chain) = selectVersion sees chain := by
  induction chain with
  | nil => rfl
  | cons version older ih =>
    rw [cleanBy]
    by_cases creatorDead : dead version.xmin = true
    · have creatorUnseen := unseen _ creatorDead
      simp_all [selectVersion_cons]
    · by_cases deleterDead : dead version.xmax = true
      · have deleterUnseen := unseen _ deleterDead
        simp_all [selectVersion_cons]
      · simp [creatorDead, deleterDead, selectVersion_cons, ih]

/-- A chain without dead ids is left as it is. -/
theorem cleanBy_eq_self (alive : ∀ version ∈ chain, dead version.xmin = false ∧ dead version.xmax = false) :
    cleanBy dead chain = chain := by
  induction chain with
  | nil => rfl
  | cons version older ih =>
    obtain ⟨creator, deleter⟩ := alive version List.mem_cons_self
    rw [cleanBy, ih fun other member => alive other (List.mem_cons_of_mem _ member)]
    simp [creator, deleter]

theorem cleanBy_congr {dead' : TxnId → Bool} (agree : ∀ version ∈ chain,
      dead version.xmin = dead' version.xmin ∧ dead version.xmax = dead' version.xmax) :
    cleanBy dead chain = cleanBy dead' chain := by
  induction chain with
  | nil => rfl
  | cons version older ih =>
    obtain ⟨creator, deleter⟩ := agree version List.mem_cons_self
    rw [cleanBy, cleanBy, creator, deleter, ih fun other member => agree other (List.mem_cons_of_mem _ member)]

/-- One more dead transaction is one more pass over the cleaned chain. -/
theorem cleanBy_also (real : txn ≠ noTxn) (chain : List (Version α)) :
    cleanBy (fun xid => dead xid || decide (xid = txn)) chain =
      cleanBy (fun xid => decide (xid = txn)) (cleanBy dead chain) := by
  induction chain with
  | nil => rfl
  | cons version older ih =>
    cases creatorDead : dead version.xmin with
    | true => simp [cleanBy, creatorDead, ih]
    | false =>
      by_cases creator : version.xmin = txn
      · simp [cleanBy, creator, ih, creator ▸ creatorDead]
      · cases deleterDead : dead version.xmax <;>
          simp [cleanBy, creator, creatorDead, deleterDead, ih, Ne.symm real]

theorem mem_cleanBy {version : Version α} (member : version ∈ cleanBy dead chain) :
    ∃ stored ∈ chain, dead stored.xmin = false ∧
      version = { stored with xmax := if dead stored.xmax then noTxn else stored.xmax } := by
  induction chain with
  | nil => simp [cleanBy] at member
  | cons head older ih =>
    rw [cleanBy] at member
    split at member
    · obtain ⟨stored, inOlder, rest⟩ := ih member
      exact ⟨stored, List.mem_cons_of_mem _ inOlder, rest⟩
    · rename_i alive
      rcases List.mem_cons.mp member with equal | inClean
      · exact ⟨head, List.mem_cons_self, by simpa using alive, equal⟩
      · obtain ⟨stored, inOlder, rest⟩ := ih inClean
        exact ⟨stored, List.mem_cons_of_mem _ inOlder, rest⟩

private theorem mem_cleanBy_of_mem {stored : Version α} (member : stored ∈ chain) (alive : dead stored.xmin = false) :
    { stored with xmax := if dead stored.xmax then noTxn else stored.xmax } ∈
      cleanBy dead chain := by
  induction chain with
  | nil => simp at member
  | cons head older ih =>
    rw [cleanBy]
    rcases List.mem_cons.mp member with equal | inOlder
    · subst equal
      simp [alive]
    · split
      · exact ih inOlder
      · exact List.mem_cons_of_mem _ (ih inOlder)

/-! ## Chains in commit order -/

/-- The id occurs in the chain, as a creator or as a deleter. -/
def Mentions (chain : List (Version α)) (xid : TxnId) : Prop :=
  ∃ version ∈ chain, version.xmin = xid ∨ version.xmax = xid

/-- A chain without traces of aborted transactions, against the commit order and
the one transaction with an uncommitted write to it. -/
structure ChainOk (order : CommitOrder) (pending : Option TxnId) (chain : List (Version α)) :
    Prop where
  creatorKnown : ∀ version ∈ chain, (order version.xmin).isSome ∨ pending = some version.xmin
  deleterKnown : ∀ version ∈ chain, version.xmax = noTxn ∨ (order version.xmax).isSome ∨ pending = some version.xmax
  superseded : chain.Pairwise fun newer older => older.xmax ≠ noTxn ∧ ∀ created, order newer.xmin = some created →
      ∃ deleted, order older.xmax = some deleted ∧ deleted ≤ created
  createdFirst : ∀ version ∈ chain, ∀ deleted, order version.xmax = some deleted →
    ∃ created, order version.xmin = some created ∧ created ≤ deleted

namespace ChainOk

variable {order : CommitOrder} {pending : Option TxnId} {chain older : List (Version α)}
  {newest : Version α} {txn xid : TxnId}

theorem nil : ChainOk order pending ([] : List (Version α)) := ⟨by simp, by simp, List.Pairwise.nil, by simp⟩

/-- Every real id in a sound chain is committed, or that of the open writer. -/
theorem known (ok : ChainOk order pending chain) (mentioned : Mentions chain xid) :
    xid = noTxn ∨ (order xid).isSome ∨ pending = some xid := by
  obtain ⟨version, member, creator | deleter⟩ := mentioned
  · exact Or.inr (creator ▸ ok.creatorKnown version member)
  · exact deleter ▸ ok.deleterKnown version member

theorem filter (ok : ChainOk order pending chain) (keep : Version α → Bool) :
    ChainOk order pending (chain.filter keep) where
  creatorKnown version member := ok.creatorKnown version (List.mem_of_mem_filter member)
  deleterKnown version member := ok.deleterKnown version (List.mem_of_mem_filter member)
  superseded := ok.superseded.filter keep
  createdFirst version member := ok.createdFirst version (List.mem_of_mem_filter member)

/-- Below a committed version everything was settled before it was created. -/
theorem older_committed (ok : ChainOk order pending (newest :: older)) {created : Nat}
    (committed : order newest.xmin = some created) (mentioned : Mentions older xid) :
    ∃ at_, order xid = some at_ ∧ at_ ≤ created := by
  obtain ⟨version, member, which⟩ := mentioned
  obtain ⟨deleted, isDeleted, before⟩ := ((List.pairwise_cons.mp ok.superseded).1 version member).2 created committed
  rcases which with creator | deleter
  · obtain ⟨first, isFirst, earlier⟩ := ok.createdFirst version (List.mem_cons_of_mem _ member) deleted isDeleted
    exact ⟨first, creator ▸ isFirst, le_trans earlier before⟩
  · exact ⟨deleted, deleter ▸ isDeleted, before⟩

theorem older_deleted (ok : ChainOk order pending (newest :: older)) {version : Version α}
    (member : version ∈ older) : version.xmax ≠ noTxn :=
  ((List.pairwise_cons.mp ok.superseded).1 version member).1

/-- The commit of a transaction, whether or not it wrote to the chain. -/
theorem commit (ok : ChainOk order pending chain) {seq : Nat} (open_ : order txn = none)
    (real : txn ≠ noTxn) (bounded : ∀ xid at_, order xid = some at_ → at_ ≤ seq) :
    ChainOk (order.extend txn (seq + 1)) (if pending = some txn then none else pending) chain := by
  have kept : ∀ {xid at_}, order xid = some at_ → order.extend txn (seq + 1) xid = some at_ := by
    intro xid at_ committed
    have other : xid ≠ txn := by
      rintro rfl
      simp [open_] at committed
    rw [CommitOrder.extend_of_ne other, committed]
  have resolved : ∀ {xid}, (order xid).isSome ∨ pending = some xid → ((order.extend txn (seq + 1)) xid).isSome ∨
        (if pending = some txn then none else pending) = some xid := by
    rintro xid (committed | waiting)
    · obtain ⟨at_, found⟩ := Option.isSome_iff_exists.mp committed
      exact Or.inl (by simp [kept found])
    · by_cases same : xid = txn
      · exact Or.inl (by simp [same, CommitOrder.extend_self])
      · exact Or.inr (by simp [waiting, same])
  refine ⟨fun version member => resolved (ok.creatorKnown version member), ?_, ?_, ?_⟩
  · intro version member
    exact (ok.deleterKnown version member).imp_right resolved
  · refine ok.superseded.imp_of_mem ?_
    rintro newer old newerMember oldMember ⟨deleted, before⟩
    refine ⟨deleted, fun created found => ?_⟩
    by_cases committing : newer.xmin = txn
    · -- The committing transaction is the newest: whatever it replaced is older.
      obtain rfl : seq + 1 = created := by simpa [committing, CommitOrder.extend_self] using found
      rcases (ok.deleterKnown old oldMember).resolve_left deleted with committed | waiting
      · obtain ⟨at_, found⟩ := Option.isSome_iff_exists.mp committed
        exact ⟨at_, kept found, Nat.le_succ_of_le (bounded _ _ found)⟩
      · have writer : pending = some txn := by
          simpa [committing, open_] using ok.creatorKnown newer newerMember
        obtain rfl : txn = old.xmax := by simpa [writer] using waiting
        exact ⟨seq + 1, CommitOrder.extend_self .., le_refl _⟩
    · rw [CommitOrder.extend_of_ne committing] at found
      obtain ⟨at_, isDeleted, earlier⟩ := before created found
      exact ⟨at_, kept isDeleted, earlier⟩
  · intro version member deleted found
    by_cases committing : version.xmax = txn
    · obtain rfl : seq + 1 = deleted := by
        simpa [committing, CommitOrder.extend_self] using found
      rcases ok.creatorKnown version member with committed | waiting
      · obtain ⟨at_, found⟩ := Option.isSome_iff_exists.mp committed
        exact ⟨at_, kept found, Nat.le_succ_of_le (bounded _ _ found)⟩
      · have writer : pending = some txn := by
          simpa [committing, open_, real] using ok.deleterKnown version member
        obtain rfl : txn = version.xmin := by simpa [writer] using waiting
        exact ⟨seq + 1, CommitOrder.extend_self .., le_refl _⟩
    · rw [CommitOrder.extend_of_ne committing] at found
      obtain ⟨at_, isCreated, earlier⟩ := ok.createdFirst version member deleted found
      exact ⟨at_, kept isCreated, earlier⟩

/-- The writer of a version nobody committed deleted it itself or not at all. -/
theorem own_deleter (ok : ChainOk order (some txn) chain) (open_ : order txn = none) {version : Version α}
    (member : version ∈ chain) (own : version.xmin = txn) : version.xmax = noTxn ∨ version.xmax = txn := by
  rcases ok.deleterKnown version member with none | committed | waiting
  · exact Or.inl none
  · obtain ⟨deleted, found⟩ := Option.isSome_iff_exists.mp committed
    obtain ⟨created, isCreated, -⟩ := ok.createdFirst version member deleted found
    simp [own, open_] at isCreated
  · exact Or.inr (Option.some.inj waiting).symm

private theorem pairwise_cleanBy {R : Version α → Version α → Prop} {dead : TxnId → Bool}
    (pairwise : chain.Pairwise R)
    (preserved : ∀ newer ∈ chain, ∀ old ∈ chain, dead newer.xmin = false → R newer old →
      R { newer with xmax := if dead newer.xmax then noTxn else newer.xmax }
        { old with xmax := if dead old.xmax then noTxn else old.xmax }) :
    (cleanBy dead chain).Pairwise R := by
  induction chain with
  | nil => exact List.Pairwise.nil
  | cons head rest ih =>
    obtain ⟨headRelated, restPairwise⟩ := List.pairwise_cons.mp pairwise
    have restClean := ih restPairwise fun newer newerMember old oldMember =>
      preserved newer (List.mem_cons_of_mem _ newerMember) old (List.mem_cons_of_mem _ oldMember)
    rw [cleanBy]
    split
    · exact restClean
    · rename_i alive
      refine List.pairwise_cons.mpr ⟨?_, restClean⟩
      intro version member
      obtain ⟨stored, inRest, -, rfl⟩ := mem_cleanBy member
      exact preserved head List.mem_cons_self stored (List.mem_cons_of_mem _ inRest)
        (by simpa using alive) (headRelated stored inRest)

/-- The abort of the transaction with the uncommitted write. -/
theorem abort (ok : ChainOk order (some txn) chain) (open_ : order txn = none)
    (noneOpen : order noTxn = none) :
    ChainOk order none (cleanBy (fun xid => decide (xid = txn)) chain) := by
  have creatorCommitted : ∀ version ∈ chain, decide (version.xmin = txn) = false → (order version.xmin).isSome := by
    intro version member other
    refine (ok.creatorKnown version member).resolve_right fun writer => ?_
    simp [Option.some.inj writer] at other
  refine ⟨?_, ?_, ?_, ?_⟩
  · intro version member
    obtain ⟨stored, inChain, other, rfl⟩ := mem_cleanBy member
    exact Or.inl (creatorCommitted stored inChain other)
  · intro version member
    obtain ⟨stored, inChain, -, rfl⟩ := mem_cleanBy member
    by_cases own : stored.xmax = txn
    · simp [own]
    · have known := ok.deleterKnown stored inChain
      simp only [Option.some.injEq, Ne.symm own, or_false] at known
      simpa [own] using known
  · refine pairwise_cleanBy ok.superseded ?_
    rintro newer newerMember old - other ⟨deleted, before⟩
    obtain ⟨created, found⟩ := Option.isSome_iff_exists.mp (creatorCommitted newer newerMember other)
    obtain ⟨at_, isDeleted, earlier⟩ := before created found
    have notOwn : old.xmax ≠ txn := by
      intro own
      simp [own, open_] at isDeleted
    simpa [notOwn] using And.intro deleted before
  · intro version member deleted found
    obtain ⟨stored, inChain, -, rfl⟩ := mem_cleanBy member
    by_cases own : stored.xmax = txn
    · simp [own, noneOpen] at found
    · exact ok.createdFirst stored inChain deleted (by simpa [own] using found)

theorem own_pending (ok : ChainOk order pending chain) (free : pending = none ∨ pending = some txn) :
    ChainOk order (some txn) chain := by
  have widen : ∀ {xid}, (order xid).isSome ∨ pending = some xid → (order xid).isSome ∨ some txn = some xid := by
    rintro xid (committed | waiting)
    · exact Or.inl committed
    · exact Or.inr (by rcases free with none | own <;> simp_all)
  exact ⟨fun version member => widen (ok.creatorKnown version member),
    fun version member => (ok.deleterKnown version member).imp_right widen,
    ok.superseded, ok.createdFirst⟩

/-- Deleting the newest version, which nobody deleted before. -/
theorem markDeleted (ok : ChainOk order (some txn) (newest :: older)) (open_ : order txn = none) :
    ChainOk order (some txn) (Engine.markDeleted txn (newest :: older)) := by
  obtain ⟨newestPairs, olderPairs⟩ := List.pairwise_cons.mp ok.superseded
  refine ⟨?_, ?_, List.pairwise_cons.mpr ⟨newestPairs, olderPairs⟩, ?_⟩
  · intro version member
    rcases List.mem_cons.mp member with equal | inOlder
    · subst equal
      exact ok.creatorKnown newest List.mem_cons_self
    · exact ok.creatorKnown version (List.mem_cons_of_mem _ inOlder)
  · intro version member
    rcases List.mem_cons.mp member with equal | inOlder
    · subst equal
      exact Or.inr (Or.inr rfl)
    · exact ok.deleterKnown version (List.mem_cons_of_mem _ inOlder)
  · intro version member deleted found
    rcases List.mem_cons.mp member with equal | inOlder
    · subst equal
      simp [open_] at found
    · exact ok.createdFirst version (List.mem_cons_of_mem _ inOlder) deleted found

/-- A new version on top of a chain whose newest version is deleted. -/
theorem push (ok : ChainOk order (some txn) chain) (open_ : order txn = none)
    (noneOpen : order noTxn = none) (deleted : ∀ version ∈ chain, version.xmax ≠ noTxn)
    (payload : α) : ChainOk order (some txn) (Version.live txn payload :: chain) := by
  refine ⟨?_, ?_, List.pairwise_cons.mpr ⟨?_, ok.superseded⟩, ?_⟩
  · intro version member
    rcases List.mem_cons.mp member with equal | inChain
    · subst equal
      exact Or.inr rfl
    · exact ok.creatorKnown version inChain
  · intro version member
    rcases List.mem_cons.mp member with equal | inChain
    · subst equal
      exact Or.inl rfl
    · exact ok.deleterKnown version inChain
  · intro version member
    refine ⟨deleted version member, fun created found => ?_⟩
    simp [Version.live, open_] at found
  · intro version member at_ found
    rcases List.mem_cons.mp member with equal | inChain
    · subst equal
      simp [Version.live, noneOpen] at found
    · exact ok.createdFirst version inChain at_ found

/-- Replacing the value of the newest version, which nobody deleted. -/
theorem supersede (ok : ChainOk order (some txn) (newest :: older)) (open_ : order txn = none)
    (noneOpen : order noTxn = none) (real : txn ≠ noTxn) (new : α) :
    ChainOk order (some txn) (Engine.supersede txn new (newest :: older)) := by
  rw [Engine.supersede]
  split
  · obtain ⟨newestPairs, olderPairs⟩ := List.pairwise_cons.mp ok.superseded
    refine ⟨?_, ?_, List.pairwise_cons.mpr ⟨newestPairs, olderPairs⟩, ?_⟩
    · exact List.forall_mem_cons.mpr (List.forall_mem_cons.mp ok.creatorKnown)
    · exact List.forall_mem_cons.mpr (List.forall_mem_cons.mp ok.deleterKnown)
    · exact List.forall_mem_cons.mpr (List.forall_mem_cons.mp ok.createdFirst)
  · refine push (ok.markDeleted open_) open_ noneOpen ?_ new
    intro version member
    rcases List.mem_cons.mp member with equal | inOlder
    · subst equal
      exact real
    · exact ok.older_deleted inOlder

/-- The committed ids of a chain survive the removal of the open writer's traces. -/
theorem mentions_cleanBy (ok : ChainOk order (some txn) chain) (open_ : order txn = none)
    (noneOpen : order noTxn = none) {at_ : Nat} (committed : order xid = some at_) :
    Mentions (cleanBy (fun xid => decide (xid = txn)) chain) xid ↔ Mentions chain xid := by
  have other : xid ≠ txn := by
    rintro rfl
    simp [open_] at committed
  have real : xid ≠ noTxn := by
    rintro rfl
    simp [noneOpen] at committed
  constructor
  · rintro ⟨version, member, which⟩
    obtain ⟨stored, inChain, -, rfl⟩ := mem_cleanBy member
    refine ⟨stored, inChain, which.imp_right fun deleter => ?_⟩
    by_cases own : stored.xmax = txn
    · simp [own, Ne.symm real] at deleter
    · simpa [own] using deleter
  · rintro ⟨stored, inChain, which⟩
    have creator : stored.xmin ≠ txn := by
      intro own
      rcases which with rfl | rfl
      · exact other own
      · rcases ok.own_deleter open_ inChain own with none | mine
        · exact real none
        · exact other mine
    refine ⟨_, mem_cleanBy_of_mem inChain (by simpa using creator), which.imp_right fun deleter => ?_⟩
    simp [deleter, other]

end ChainOk

/-! ## What a write changes for a reader -/

section

variable {sees : TxnId → Bool} {newest : Version α} {older : List (Version α)} {txn : TxnId}

/-- A delete by somebody the reader does not see. -/
theorem selectVersion_markDeleted_unseen (unseen : sees txn = false) (noneUnseen : sees noTxn = false)
    (live : newest.xmax = noTxn) : selectVersion sees (Engine.markDeleted txn (newest :: older)) =
      selectVersion sees (newest :: older) := by
  simp [Engine.markDeleted, selectVersion_cons, live, unseen, noneUnseen]

/-- An update by somebody the reader does not see. -/
theorem selectVersion_supersede_unseen (unseen : sees txn = false) (noneUnseen : sees noTxn = false)
    (live : newest.xmax = noTxn) (new : α) : selectVersion sees (Engine.supersede txn new (newest :: older)) =
      selectVersion sees (newest :: older) := by
  rw [Engine.supersede]
  split
  · rename_i own
    simp [selectVersion_cons, own, unseen]
  · simp [selectVersion_cons, Version.live, live, unseen, noneUnseen]

/-- The writer reads its own update. -/
theorem selectVersion_supersede_seen (seen : sees txn = true) (noneUnseen : sees noTxn = false)
    (live : newest.xmax = noTxn) (new : α) :
    selectVersion sees (Engine.supersede txn new (newest :: older)) = some new := by
  rw [Engine.supersede]
  split
  · rename_i own
    simp [selectVersion_cons, own, seen, live, noneUnseen]
  · simp [selectVersion_cons, Version.live, seen, noneUnseen]

/-- The writer reads its own delete, when it sees all older deletes. -/
theorem selectVersion_markDeleted_seen (seen : sees txn = true)
    (olderDeleted : ∀ version ∈ older, sees version.xmax = true) :
    selectVersion sees (Engine.markDeleted txn (newest :: older)) = none := by
  refine selectVersion_eq_none fun version member _ => ?_
  rcases List.mem_cons.mp member with equal | inOlder
  · subst equal
    exact seen
  · exact olderDeleted version inOlder

end

/-- Whom a write mentions: those the chain mentioned, and the writer. -/
theorem mentions_markDeleted {newest : Version α} {older : List (Version α)} {xid : TxnId}
    (live : newest.xmax = noTxn) (other : xid ≠ txn) (real : xid ≠ noTxn) :
    Mentions (Engine.markDeleted txn (newest :: older)) xid ↔ Mentions (newest :: older) xid := by
  simp [Mentions, Engine.markDeleted, live, Ne.symm other, Ne.symm real]

theorem mentions_supersede {newest : Version α} {older : List (Version α)} {xid : TxnId} (live : newest.xmax = noTxn)
    (other : xid ≠ txn) (real : xid ≠ noTxn) (new : α) :
    Mentions (Engine.supersede txn new (newest :: older)) xid ↔ Mentions (newest :: older) xid := by
  rw [Engine.supersede]
  split <;> simp [Mentions, Version.live, live, Ne.symm other, Ne.symm real]

end Ferrite.Storage
