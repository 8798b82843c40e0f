import Ferrite.Storage.CommitOrder
import Ferrite.Storage.ReferenceModel

/-!
# One row in the engine and in the reference model

`RowRel` relates the chain of a row, cleaned of aborted transactions, to the
row's history in the reference model. It speaks only of the sequence numbers
somebody can still read at, so that pruning keeps it.
-/

namespace Ferrite.Storage

open CommitOrder

/-- The sequence numbers somebody can still read at. -/
def Model.Reached (model : Model) (seq : Nat) : Prop :=
  seq = model.seq ∨ ∃ txn state, model.txns txn = some state ∧ state.beginSeq = seq

/-- What a transaction with a snapshot at `seq` sees: itself and earlier commits. -/
def CommitOrder.ownSees (order : CommitOrder) (txn : TxnId) (seq : Nat) (xid : TxnId) : Bool :=
  decide (xid = txn) || order.sees seq xid

/-- The commit order against the transactions of the model. -/
structure OrderOk (order : CommitOrder) (model : Model) : Prop where
  noneOpen : order noTxn = none
  past : ∀ xid at_, order xid = some at_ → at_ ≤ model.seq
  issued : ∀ xid at_, order xid = some at_ → xid < model.nextTxn
  unresolved : ∀ txn state, model.txns txn = some state →
    order txn = none ∧ txn ≠ noTxn ∧ txn < model.nextTxn ∧ state.beginSeq ≤ model.seq

/-- A cleaned chain against the history of its row. -/
structure RowRel (order : CommitOrder) (model : Model) (row : RowId)
    (chain : List (Version Row)) : Prop where
  inOrder : ChainOk order (model.rows row).pending chain
  reads : ∀ seq, model.Reached seq →
    selectVersion (order.sees seq) chain = (Model.committedAt (model.rows row) seq).join
  newer : ∀ seq, model.Reached seq → (Model.hasNewerCommit (model.rows row) seq = true ↔
      ∃ xid at_, Mentions chain xid ∧ order xid = some at_ ∧ seq < at_)
  past : ∀ write ∈ (model.rows row).committed, write.1 ≤ model.seq
  owner : ∀ txn, (model.rows row).pending = some txn →
    ∃ state written, model.txns txn = some state ∧ state.writes row = some written ∧
      selectVersion (order.ownSees txn state.beginSeq) chain = written ∧
      (∀ xid at_, Mentions chain xid → order xid = some at_ → at_ ≤ state.beginSeq) ∧
      Mentions chain txn
  strangers : ∀ txn state, model.txns txn = some state → (model.rows row).pending ≠ some txn → state.writes row = none

section

variable {α : Type} {order : CommitOrder} {model model' : Model} {row : RowId}
  {chain : List (Version Row)} {txn : TxnId} {state : ModelTxn}

theorem Model.reached_open (opened : model.txns txn = some state) : model.Reached state.beginSeq :=
  Or.inr ⟨txn, state, opened, rfl⟩

theorem OrderOk.reached_le (ordered : OrderOk order model) {seq : Nat}
    (reached : model.Reached seq) : seq ≤ model.seq := by
  rcases reached with now | ⟨txn, state, opened, rfl⟩
  · exact le_of_eq now
  · exact (ordered.unresolved txn state opened).2.2.2

theorem OrderOk.sees_noTxn (ordered : OrderOk order model) (seq : Nat) : order.sees seq noTxn = false :=
  sees_of_none ordered.noneOpen

theorem OrderOk.ownSees_noTxn (ordered : OrderOk order model)
    (opened : model.txns txn = some state) (seq : Nat) : order.ownSees txn seq noTxn = false := by
  have real := (ordered.unresolved txn state opened).2.1
  simp [ownSees, ordered.sees_noTxn, Ne.symm real]

theorem OrderOk.committed_ne (ordered : OrderOk order model) (opened : model.txns txn = some state)
    {xid : TxnId} {at_ : Nat} (found : order xid = some at_) : xid ≠ txn ∧ xid ≠ noTxn := by
  obtain ⟨open_, -⟩ := ordered.unresolved txn state opened
  constructor
  · rintro rfl
    simp [open_] at found
  · rintro rfl
    simp [ordered.noneOpen] at found

/-- Two readers who agree on the ids of a chain read the same. -/
theorem selectVersion_congr_mentions {sees sees' : TxnId → Bool} {chain : List (Version α)}
    (agree : ∀ xid, Mentions chain xid → sees xid = sees' xid) : selectVersion sees chain = selectVersion sees' chain :=
  selectVersion_congr fun version member =>
    ⟨agree _ ⟨version, member, Or.inl rfl⟩, agree _ ⟨version, member, Or.inr rfl⟩⟩

/-- An open transaction without a write to the row does not occur in its chain. -/
theorem RowRel.stranger_unmentioned (rel : RowRel order model row chain) (ordered : OrderOk order model)
    (opened : model.txns txn = some state) (stranger : (model.rows row).pending ≠ some txn) : ¬Mentions chain txn := by
  intro mentioned
  obtain ⟨open_, real, -⟩ := ordered.unresolved txn state opened
  rcases rel.inOrder.known mentioned with none | committed | writer
  · exact real none
  · simp [open_] at committed
  · exact stranger writer

/-- An open transaction reads its own last write, else the newest commit before
its snapshot. -/
theorem RowRel.view (rel : RowRel order model row chain) (ordered : OrderOk order model)
    (opened : model.txns txn = some state) :
    selectVersion (order.ownSees txn state.beginSeq) chain = (model.view state row).join := by
  by_cases writer : (model.rows row).pending = some txn
  · obtain ⟨state', written, opened', writes, reads, -⟩ := rel.owner txn writer
    obtain rfl : state = state' := by simpa [opened] using opened'
    simp [Model.view, writes, reads]
  · have unmentioned := rel.stranger_unmentioned ordered opened writer
    have same : selectVersion (order.ownSees txn state.beginSeq) chain =
        selectVersion (order.sees state.beginSeq) chain := by
      refine selectVersion_congr_mentions fun xid mentioned => ?_
      have other : xid ≠ txn := fun equal => unmentioned (equal ▸ mentioned)
      simp [ownSees, other]
    rw [same, rel.reads _ (Model.reached_open opened)]
    simp [Model.view, rel.strangers txn state opened writer]

/-- Dropping versions whose delete everybody sees. -/
theorem RowRel.filter (rel : RowRel order model row chain) (ordered : OrderOk order model) {keep : Version Row → Bool}
    (dropped : ∀ version ∈ chain, keep version = false →
      ∃ deleted, order version.xmax = some deleted ∧ ∀ seq, model.Reached seq → deleted ≤ seq) :
    RowRel order model row (chain.filter keep) := by
  have kept : ∀ {xid}, Mentions (chain.filter keep) xid → Mentions chain xid := by
    rintro xid ⟨version, member, which⟩
    exact ⟨version, List.mem_of_mem_filter member, which⟩
  refine ⟨rel.inOrder.filter keep, ?_, ?_, rel.past, ?_, rel.strangers⟩
  · intro seq reached
    rw [← rel.reads seq reached]
    refine selectVersion_filter fun version member gone => ?_
    obtain ⟨deleted, isDeleted, before⟩ := dropped version member gone
    exact sees_iff.mpr ⟨deleted, isDeleted, before seq reached⟩
  · intro seq reached
    rw [rel.newer seq reached]
    constructor
    · rintro ⟨xid, at_, ⟨version, member, which⟩, found, later⟩
      refine ⟨xid, at_, ⟨version, List.mem_filter.mpr ⟨member, ?_⟩, which⟩, found, later⟩
      by_contra gone
      obtain ⟨deleted, isDeleted, before⟩ := dropped version member (by simpa using gone)
      obtain ⟨created, isCreated, earlier⟩ := rel.inOrder.createdFirst version member _ isDeleted
      have deletedSeen := before seq reached
      rcases which with rfl | rfl
      · obtain rfl : created = at_ := by simpa [found] using isCreated.symm
        omega
      · obtain rfl : deleted = at_ := by simpa [found] using isDeleted.symm
        omega
    · rintro ⟨xid, at_, mentioned, found, later⟩
      exact ⟨xid, at_, kept mentioned, found, later⟩
  · intro txn writer
    obtain ⟨state, written, opened, writes, reads, settled, version, member, which⟩ := rel.owner txn writer
    have open_ := (ordered.unresolved txn state opened).1
    refine ⟨state, written, opened, writes, ?_, fun xid at_ mentioned => settled xid at_ (kept mentioned),
      version, List.mem_filter.mpr ⟨member, ?_⟩, which⟩
    · rw [← reads]
      refine selectVersion_filter fun version member gone => ?_
      obtain ⟨deleted, isDeleted, before⟩ := dropped version member gone
      have seen := sees_iff.mpr ⟨deleted, isDeleted, before _ (Model.reached_open opened)⟩
      simp [ownSees, seen]
    · by_contra gone
      obtain ⟨deleted, isDeleted, -⟩ := dropped version member (by simpa using gone)
      obtain ⟨created, isCreated, -⟩ := rel.inOrder.createdFirst version member _ isDeleted
      rcases which with rfl | rfl
      · simp [open_] at isCreated
      · simp [open_] at isDeleted

/-- From the current sequence number on, a history reads the same. -/
theorem committedAt_of_past {history : RowHistory} {now seq : Nat} (past : ∀ write ∈ history.committed, write.1 ≤ now)
    (later : now ≤ seq) : Model.committedAt history seq = Model.committedAt history now := by
  obtain ⟨committed, pending⟩ := history
  cases committed with
  | nil => rfl
  | cons newest rest =>
    have newestPast : newest.1 ≤ now := past newest List.mem_cons_self
    simp [Model.committedAt, newestPast, le_trans newestPast later]

private theorem hasNewerCommit_of_past {history : RowHistory} {now seq : Nat}
    (past : ∀ write ∈ history.committed, write.1 ≤ now) (later : now ≤ seq) :
    Model.hasNewerCommit history seq = false := by
  obtain ⟨committed, pending⟩ := history
  cases committed with
  | nil => rfl
  | cons newest rest =>
    have newestPast : newest.1 ≤ now := past newest List.mem_cons_self
    simp [Model.hasNewerCommit, le_trans newestPast later]

/-- A row nobody touched in a step that may open, close or re-pin transactions
and may commit somebody who did not write to it. -/
theorem RowRel.transport (rel : RowRel order model row chain) {order' : CommitOrder} (ordered : OrderOk order model)
    (agree : ∀ xid, Mentions chain xid → order' xid = order xid)
    (sameRow : model'.rows row = model.rows row) (seqGrows : model.seq ≤ model'.seq)
    (reached : ∀ seq, model'.Reached seq → model.Reached seq ∨ model.seq ≤ seq)
    (ownerStays : ∀ txn state, model.txns txn = some state → (model.rows row).pending = some txn →
      ∃ state', model'.txns txn = some state' ∧ state'.writes row = state.writes row ∧
        state.beginSeq ≤ state'.beginSeq)
    (origin : ∀ txn state', model'.txns txn = some state' → state'.writes row = none ∨
        ∃ state, model.txns txn = some state ∧ state'.writes row = state.writes row) :
    RowRel order' model' row chain := by
  have seesAgree : ∀ seq xid, Mentions chain xid → order'.sees seq xid = order.sees seq xid := by
    intro seq xid mentioned
    rw [sees, sees, agree xid mentioned]
  have nowReached : model.Reached model.seq := Or.inl rfl
  have member : ∀ {version}, version ∈ chain → order' version.xmin = order version.xmin ∧
      order' version.xmax = order version.xmax := fun {version} inChain =>
    ⟨agree _ ⟨version, inChain, Or.inl rfl⟩, agree _ ⟨version, inChain, Or.inr rfl⟩⟩
  constructor
  · rw [sameRow]
    refine ⟨?_, ?_, ?_, ?_⟩
    · intro version inChain
      rw [(member inChain).1]
      exact rel.inOrder.creatorKnown version inChain
    · intro version inChain
      rw [(member inChain).2]
      exact rel.inOrder.deleterKnown version inChain
    · refine rel.inOrder.superseded.imp_of_mem fun newerIn olderIn pair => ?_
      rw [(member newerIn).1, (member olderIn).2]
      exact pair
    · intro version inChain
      rw [(member inChain).1, (member inChain).2]
      exact rel.inOrder.createdFirst version inChain
  · intro seq reached'
    rw [selectVersion_congr_mentions (seesAgree seq), sameRow]
    rcases reached seq reached' with before | later
    · exact rel.reads seq before
    · rw [committedAt_of_past rel.past later, ← rel.reads _ nowReached]
      refine selectVersion_congr_mentions fun xid _ => ?_
      cases found : order xid with
      | none => simp [sees, found]
      | some at_ =>
        have atPast := ordered.past xid at_ found
        simp [sees, found, atPast, le_trans atPast later]
  · intro seq reached'
    have mentions : (∃ xid at_, Mentions chain xid ∧ order' xid = some at_ ∧ seq < at_) ↔
        ∃ xid at_, Mentions chain xid ∧ order xid = some at_ ∧ seq < at_ := by
      refine exists_congr fun xid => exists_congr fun at_ => and_congr_right fun mentioned => ?_
      rw [agree xid mentioned]
    rw [mentions, sameRow]
    rcases reached seq reached' with before | later
    · exact rel.newer seq before
    · rw [hasNewerCommit_of_past rel.past later]
      refine iff_of_false (by simp) ?_
      rintro ⟨xid, at_, -, found, newer⟩
      have atPast := ordered.past xid at_ found
      omega
  · rw [sameRow]
    exact fun write inHistory => le_trans (rel.past write inHistory) seqGrows
  · rw [sameRow]
    intro txn writer
    obtain ⟨state, written, opened, writes, reads, settled, mentioned⟩ := rel.owner txn writer
    obtain ⟨state', opened', sameWrites, later⟩ := ownerStays txn state opened writer
    refine ⟨state', written, opened', sameWrites.trans writes, ?_, ?_, mentioned⟩
    · rw [← reads]
      refine selectVersion_congr_mentions fun xid mentionedXid => ?_
      rw [ownSees, ownSees, seesAgree _ xid mentionedXid]
      cases found : order xid with
      | none => simp [sees, found]
      | some at_ =>
        have before := settled xid at_ mentionedXid found
        simp [sees, found, before, le_trans before later]
    · intro xid at_ mentionedXid found
      rw [agree xid mentionedXid] at found
      exact le_trans (settled xid at_ mentionedXid found) later
  · intro txn state' opened' stranger
    rw [sameRow] at stranger
    rcases origin txn state' opened' with none | ⟨state, opened, same⟩
    · exact none
    · exact same.trans (rel.strangers txn state opened stranger)

end

end Ferrite.Storage
