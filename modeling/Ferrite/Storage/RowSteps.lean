import Ferrite.Storage.RowRelation

/-!
# Writes, commits and aborts keep the row relation

The outcome of a write is decided alike on the pruned chain and in the reference
model, and every change of a row that a write, a commit or an abort makes on one
side is matched on the other.
-/

namespace Ferrite.Storage

open CommitOrder

variable {order : CommitOrder} {model : Model} {row : RowId} {chain chain' : List (Version Row)}
  {txn : TxnId} {state : ModelTxn}

/-! ## The outcome of a write -/

namespace Model

private theorem writeOutcome_conflict (conflict : (∃ writer, (model.rows row).pending = some writer ∧ writer ≠ txn) ∨
      hasNewerCommit (model.rows row) state.beginSeq = true) :
    model.writeOutcome txn state row = .error .serializationFailure := by
  rcases conflict with ⟨writer, pending, other⟩ | newer
  · simp [writeOutcome, pending, other]
  · simp [writeOutcome, newer]

private theorem writeOutcome_free
    (free : (model.rows row).pending = none ∨ (model.rows row).pending = some txn)
    (noNewer : hasNewerCommit (model.rows row) state.beginSeq = false) :
    model.writeOutcome txn state row =
      if (model.view state row).join.isSome then .ok () else .error .rowNotFound := by
  have mine : ((model.rows row).pending.any fun writer => writer ≠ txn) = false := by
    rcases free with none | own
    · simp [none]
    · simp [own]
  simp only [writeOutcome, mine, noNewer, Bool.false_eq_true, if_false]
  rcases model.view state row with _ | _ | value <;> rfl

end Model

/-- What the engine finds when it lets `txn` write: a newest version nobody deleted,
no other writer, and no commit after the snapshot. -/
structure Writable (order : CommitOrder) (model : Model) (row : RowId) (txn : TxnId)
    (state : ModelTxn) (chain : List (Version Row)) : Prop where
  free : (model.rows row).pending = none ∨ (model.rows row).pending = some txn
  settled : ∀ xid at_, Mentions chain xid → order xid = some at_ → at_ ≤ state.beginSeq

namespace RowRel

private theorem writable_of_seen {newest : Version Row} {older : List (Version Row)}
    (rel : RowRel order model row (newest :: older)) (ordered : OrderOk order model)
    (opened : model.txns txn = some state) (creatorSeen : order.ownSees txn state.beginSeq newest.xmin = true)
    (deleterSeen : newest.xmax = noTxn ∨ order.ownSees txn state.beginSeq newest.xmax = true) :
    Writable order model row txn state (newest :: older) := by
  obtain ⟨open_, real, -⟩ := ordered.unresolved txn state opened
  by_cases own : newest.xmin = txn
  · have writer : (model.rows row).pending = some txn := by
      simpa [own, open_] using rel.inOrder.creatorKnown newest List.mem_cons_self
    obtain ⟨state', -, opened', -, -, settled, -⟩ := rel.owner txn writer
    obtain rfl : state = state' := by simpa [opened] using opened'
    exact ⟨Or.inr writer, settled⟩
  · obtain ⟨created, isCreated, before⟩ : ∃ created, order newest.xmin = some created ∧ created ≤ state.beginSeq := by
      simpa [ownSees, own, sees_iff] using creatorSeen
    -- Every id of the chain is committed before the snapshot, is `txn`, or is no id at all.
    have resolved : ∀ xid, Mentions (newest :: older) xid →
        xid = noTxn ∨ xid = txn ∨ ∃ at_, order xid = some at_ ∧ at_ ≤ state.beginSeq := by
      rintro xid ⟨version, member, which⟩
      rcases List.mem_cons.mp member with equal | inOlder
      · subst equal
        rcases which with rfl | rfl
        · exact Or.inr (Or.inr ⟨created, isCreated, before⟩)
        · rcases deleterSeen with none | seen
          · exact Or.inl none
          · right
            simpa [ownSees, sees_iff] using seen
      · obtain ⟨at_, found, earlier⟩ := rel.inOrder.older_committed isCreated ⟨version, inOlder, which⟩
        exact Or.inr (Or.inr ⟨at_, found, le_trans earlier before⟩)
    refine ⟨?_, ?_⟩
    · cases pending : (model.rows row).pending with
      | none => exact Or.inl rfl
      | some writer =>
        obtain ⟨writerState, -, writerOpened, -, -, -, mentioned⟩ := rel.owner writer pending
        obtain ⟨writerOpen, writerReal, -⟩ := ordered.unresolved writer writerState writerOpened
        rcases resolved writer mentioned with none | mine | ⟨at_, found, -⟩
        · exact absurd none writerReal
        · exact Or.inr (by rw [mine])
        · simp [writerOpen] at found
    · intro xid at_ mentioned found
      rcases resolved xid mentioned with none | mine | ⟨at', found', earlier⟩
      · simp [none, ordered.noneOpen] at found
      · simp [mine, open_] at found
      · obtain rfl : at_ = at' := by simpa [found] using found'
        exact earlier

private theorem noNewer_of_writable (rel : RowRel order model row chain)
    (opened : model.txns txn = some state) (writable : Writable order model row txn state chain) :
    Model.hasNewerCommit (model.rows row) state.beginSeq = false := by
  rw [← Bool.not_eq_true, rel.newer _ (Model.reached_open opened)]
  rintro ⟨xid, at_, mentioned, found, later⟩
  have before := writable.settled xid at_ mentioned found
  omega

private theorem deleters_seen (rel : RowRel order model row chain) (writable : Writable order model row txn state chain)
    {version : Version Row} (member : version ∈ chain) (deleted : version.xmax ≠ noTxn) : order.ownSees txn
    state.beginSeq version.xmax = true := by
  rcases (rel.inOrder.deleterKnown version member).resolve_left deleted with committed | waiting
  · obtain ⟨at_, found⟩ := Option.isSome_iff_exists.mp committed
    have before := writable.settled _ at_ ⟨version, member, Or.inr rfl⟩ found
    simp [ownSees, sees, found, before]
  · rcases writable.free with none | own
    · simp [none] at waiting
    · obtain rfl : txn = version.xmax := by simpa [own] using waiting
      simp [ownSees]

/-- An id the writer does not see is a conflict: a rival writer or a newer commit. -/
theorem conflict_of_unseen (rel : RowRel order model row chain) (opened : model.txns txn = some state)
    {xid : TxnId} (mentioned : Mentions chain xid) (real : xid ≠ noTxn)
    (unseen : order.ownSees txn state.beginSeq xid = false) :
    (∃ writer, (model.rows row).pending = some writer ∧ writer ≠ txn) ∨
      Model.hasNewerCommit (model.rows row) state.beginSeq = true := by
  simp only [ownSees, Bool.or_eq_false_iff, decide_eq_false_iff_not] at unseen
  rcases (rel.inOrder.known mentioned).resolve_left real with committed | waiting
  · obtain ⟨at_, found⟩ := Option.isSome_iff_exists.mp committed
    have later : state.beginSeq < at_ := by simpa [sees, found] using unseen.2
    exact Or.inr ((rel.newer _ (Model.reached_open opened)).mpr ⟨xid, at_, mentioned, found, later⟩)
  · exact Or.inl ⟨xid, waiting, unseen.1⟩

private theorem creator_real (rel : RowRel order model row chain) (ordered : OrderOk order model)
    {version : Version Row} (member : version ∈ chain) : version.xmin ≠ noTxn := by
  rintro none
  rcases rel.inOrder.creatorKnown version member with committed | waiting
  · simp [none, ordered.noneOpen] at committed
  · obtain ⟨state, -, opened, -⟩ := rel.owner _ waiting
    exact (ordered.unresolved _ state opened).2.1 none

section

variable {engine : Engine} {snap : Snapshot}

/-- The engine's conflict check on a pruned chain gives the model's answer. -/
theorem writableVersion_eq (rel : RowRel order model row chain) (ordered : OrderOk order model)
    (opened : model.txns txn = some state) (pinned : snap.txnId = txn)
    (visible : ∀ xid, engine.visibleTxn snap xid = order.ownSees txn state.beginSeq xid)
    (alive : ∀ xid, Mentions chain xid → engine.isAborted xid = false) :
    engine.writableVersion snap chain = model.writeOutcome txn state row := by
  have view := rel.view ordered opened
  cases chain with
  | nil =>
    have writable : Writable order model row txn state [] := by
      refine ⟨?_, by rintro xid at_ ⟨_, member, -⟩; simp at member⟩
      cases pending : (model.rows row).pending with
      | none => exact Or.inl rfl
      | some writer =>
        obtain ⟨_, _, _, _, _, _, version, member, _⟩ := rel.owner writer pending
        simp at member
    rw [Model.writeOutcome_free writable.free (rel.noNewer_of_writable opened writable), ← view]
    rfl
  | cons newest older =>
    have creatorIn : Mentions (newest :: older) newest.xmin := ⟨newest, List.mem_cons_self, Or.inl rfl⟩
    have deleterIn : Mentions (newest :: older) newest.xmax := ⟨newest, List.mem_cons_self, Or.inr rfl⟩
    rw [Engine.writableVersion, visible, visible, pinned, alive _ deleterIn]
    cases creatorSeen : order.ownSees txn state.beginSeq newest.xmin with
    | false =>
      have real := rel.creator_real ordered List.mem_cons_self
      rw [Model.writeOutcome_conflict (rel.conflict_of_unseen opened creatorIn real creatorSeen)]
      rfl
    | true =>
      by_cases live : newest.xmax = noTxn
      · have writable := rel.writable_of_seen ordered opened creatorSeen (Or.inl live)
        have found : selectVersion (order.ownSees txn state.beginSeq) (newest :: older) = some newest.payload := by
          simp [selectVersion_cons, creatorSeen, live, ordered.ownSees_noTxn opened]
        rw [Model.writeOutcome_free writable.free (rel.noNewer_of_writable opened writable), ← view, found]
        simp [live]
      · cases deleterSeen : order.ownSees txn state.beginSeq newest.xmax with
        | true =>
          have writable := rel.writable_of_seen ordered opened creatorSeen (Or.inr deleterSeen)
          have gone : selectVersion (order.ownSees txn state.beginSeq) (newest :: older) =
              none := by
            refine selectVersion_eq_none fun version member _ =>
              rel.deleters_seen writable member ?_
            rcases List.mem_cons.mp member with equal | inOlder
            · rwa [equal]
            · exact rel.inOrder.older_deleted inOlder
          rw [Model.writeOutcome_free writable.free (rel.noNewer_of_writable opened writable), ← view, gone]
          simp [live]
        | false =>
          have rival : newest.xmax ≠ txn := by
            rintro own
            simp [ownSees, own] at deleterSeen
          rw [Model.writeOutcome_conflict (rel.conflict_of_unseen opened deleterIn live deleterSeen)]
          simp [live, rival]

/-- A write the engine lets through finds a live newest version. -/
theorem writable_of_ok (rel : RowRel order model row chain) (ordered : OrderOk order model)
    (opened : model.txns txn = some state)
    (visible : ∀ xid, engine.visibleTxn snap xid = order.ownSees txn state.beginSeq xid)
    (alive : ∀ xid, Mentions chain xid → engine.isAborted xid = false)
    (passed : engine.writableVersion snap chain = .ok ()) :
    ∃ newest older, chain = newest :: older ∧ newest.xmax = noTxn ∧ Writable order model row txn state chain := by
  cases chain with
  | nil => simp [Engine.writableVersion] at passed
  | cons newest older =>
    have deleterIn : Mentions (newest :: older) newest.xmax := ⟨newest, List.mem_cons_self, Or.inr rfl⟩
    rw [Engine.writableVersion, visible, visible, alive _ deleterIn] at passed
    cases creatorSeen : order.ownSees txn state.beginSeq newest.xmin with
    | false => simp [creatorSeen] at passed
    | true =>
      by_cases live : newest.xmax = noTxn
      · exact ⟨newest, older, rfl, live, rel.writable_of_seen ordered opened creatorSeen (Or.inl live)⟩
      · simp only [creatorSeen, live, ne_eq, not_false_eq_true, if_true, Bool.not_true,
          Bool.not_false, Bool.false_eq_true, if_false] at passed
        split at passed
        · simp at passed
        · split at passed <;> simp at passed

end

/-! ## Changes of a row -/

/-- An uncommitted write that leaves everybody else's reads alone. -/
theorem recordWrite (rel : RowRel order model row chain)
    (opened : model.txns txn = some state) (writable : Writable order model row txn state chain)
    {value : Option Row} (inOrder : ChainOk order (some txn) chain')
    (readsSame : ∀ seq, selectVersion (order.sees seq) chain' = selectVersion (order.sees seq) chain)
    (mentionsSame : ∀ xid at_, order xid = some at_ → (Mentions chain' xid ↔ Mentions chain xid))
    (own : selectVersion (order.ownSees txn state.beginSeq) chain' = value) (mentioned : Mentions chain' txn) :
    RowRel order (model.recordWrite txn state row value) row chain' := by
  have reached : ∀ {seq}, (model.recordWrite txn state row value).Reached seq → model.Reached seq := by
    rintro seq (now | ⟨other, otherState, otherOpened, rfl⟩)
    · exact Or.inl now
    · by_cases same : other = txn
      · have changed := by simpa [Model.recordWrite, same] using otherOpened
        exact changed ▸ Or.inr ⟨txn, state, opened, rfl⟩
      · exact Or.inr ⟨other, otherState, by simpa [Model.recordWrite, same] using otherOpened, rfl⟩
  constructor
  · simpa [Model.recordWrite] using inOrder
  · intro seq isReached
    rw [readsSame, rel.reads seq (reached isReached)]
    simp [Model.recordWrite, Model.committedAt]
  · intro seq isReached
    have before := rel.newer seq (reached isReached)
    simp only [Model.recordWrite, Model.hasNewerCommit, if_true] at before ⊢
    rw [before]
    refine exists_congr fun xid => exists_congr fun at_ => ?_
    constructor
    · rintro ⟨inChain, found, later⟩
      exact ⟨(mentionsSame xid at_ found).mpr inChain, found, later⟩
    · rintro ⟨inChain, found, later⟩
      exact ⟨(mentionsSame xid at_ found).mp inChain, found, later⟩
  · simpa [Model.recordWrite] using rel.past
  · intro writer pending
    obtain rfl : txn = writer := by simpa [Model.recordWrite] using pending
    refine ⟨state.wrote row value, value, by simp [Model.recordWrite], by simp [ModelTxn.wrote], own,
      ?_, mentioned⟩
    intro xid at_ inChain found
    exact writable.settled xid at_ ((mentionsSame xid at_ found).mp inChain) found
  · intro other otherState otherOpened stranger
    have notMine : other ≠ txn := by
      rintro rfl
      simp [Model.recordWrite] at stranger
    have before : model.txns other = some otherState := by simpa [Model.recordWrite, notMine] using otherOpened
    refine rel.strangers other otherState before ?_
    rcases writable.free with none | mine
    · simp [none]
    · simpa [mine] using Ne.symm notMine

section

variable {newest : Version Row} {older : List (Version Row)}
  (rel : RowRel order model row (newest :: older)) (ordered : OrderOk order model)
  (opened : model.txns txn = some state) (live : newest.xmax = noTxn)
  (writable : Writable order model row txn state (newest :: older))

include rel ordered opened live writable

theorem update (new : Row) : RowRel order (model.recordWrite txn state row (some new)) row
      (Engine.supersede txn new (newest :: older)) := by
  obtain ⟨open_, real, -⟩ := ordered.unresolved txn state opened
  have unseen : ∀ seq, order.sees seq txn = false := fun _ => sees_of_none open_
  refine rel.recordWrite opened writable
    ((rel.inOrder.own_pending writable.free).supersede open_ ordered.noneOpen real new) ?_ ?_ ?_ ?_
  · exact fun seq => selectVersion_supersede_unseen (unseen seq) (ordered.sees_noTxn seq) live new
  · intro xid at_ found
    obtain ⟨other, notNone⟩ := ordered.committed_ne opened found
    exact mentions_supersede live other notNone new
  · exact selectVersion_supersede_seen (by simp [ownSees]) (ordered.ownSees_noTxn opened _) live new
  · rw [Engine.supersede]
    split
    · rename_i own
      exact ⟨_, List.mem_cons_self, Or.inl own⟩
    · exact ⟨_, List.mem_cons_self, Or.inl rfl⟩

theorem delete : RowRel order (model.recordWrite txn state row none) row
      (Engine.markDeleted txn (newest :: older)) := by
  obtain ⟨open_, -⟩ := ordered.unresolved txn state opened
  have unseen : ∀ seq, order.sees seq txn = false := fun _ => sees_of_none open_
  refine rel.recordWrite opened writable ((rel.inOrder.own_pending writable.free).markDeleted open_) ?_ ?_ ?_ ?_
  · exact fun seq => selectVersion_markDeleted_unseen (unseen seq) (ordered.sees_noTxn seq) live
  · intro xid at_ found
    obtain ⟨other, notNone⟩ := ordered.committed_ne opened found
    exact mentions_markDeleted live other notNone
  · refine selectVersion_markDeleted_seen (by simp [ownSees]) fun version member => ?_
    exact rel.deleters_seen writable (List.mem_cons_of_mem _ member) (rel.inOrder.older_deleted member)
  · exact ⟨_, List.mem_cons_self, Or.inr rfl⟩

end

/-- The first version of a row nobody wrote to. -/
theorem insert (rel : RowRel order model row []) (ordered : OrderOk order model)
    (opened : model.txns txn = some state) (unwritten : (model.rows row).pending = none) (new : Row) :
    RowRel order (model.recordWrite txn state row (some new)) row [Version.live txn new] := by
  obtain ⟨open_, real, -⟩ := ordered.unresolved txn state opened
  have writable : Writable order model row txn state [] :=
    ⟨Or.inl unwritten, by rintro xid at_ ⟨_, member, -⟩; simp at member⟩
  refine rel.recordWrite opened writable (ChainOk.nil.push open_ ordered.noneOpen (by simp) new) ?_ ?_ ?_ ?_
  · intro seq
    simp [selectVersion_cons, Version.live, sees_of_none open_]
  · intro xid at_ found
    obtain ⟨other, notNone⟩ := ordered.committed_ne opened found
    simp [Mentions, Version.live, Ne.symm other, Ne.symm notNone]
  · simp [selectVersion_cons, Version.live, ownSees, ordered.sees_noTxn, Ne.symm real]
  · exact ⟨_, List.mem_cons_self, Or.inl rfl⟩

/-- The commit of the transaction with the uncommitted write. -/
theorem commitOwner (rel : RowRel order model row chain) (ordered : OrderOk order model)
    (opened : model.txns txn = some state) (writer : (model.rows row).pending = some txn) :
    RowRel (order.extend txn (model.seq + 1)) (model.commit txn state) row chain := by
  obtain ⟨open_, real, -⟩ := ordered.unresolved txn state opened
  obtain ⟨state', written, opened', writes, own, settled, mentioned⟩ := rel.owner txn writer
  obtain rfl : state = state' := by simpa [opened] using opened'
  have history : (model.commit txn state).rows row =
      ⟨(model.seq + 1, written) :: (model.rows row).committed, none⟩ := by
    simp [Model.commit, writes, Model.released, writer]
  have reached : ∀ {seq}, (model.commit txn state).Reached seq → seq = model.seq + 1 ∨ model.Reached seq := by
    rintro seq (now | ⟨other, otherState, otherOpened, rfl⟩)
    · exact Or.inl now
    · refine Or.inr (Or.inr ⟨other, otherState, ?_, rfl⟩)
      by_cases same : other = txn
      · simp [Model.commit, same] at otherOpened
      · simpa [Model.commit, same] using otherOpened
  constructor
  · have inOrder := rel.inOrder.commit open_ real ordered.past
    rw [writer, if_pos rfl] at inOrder
    rwa [history]
  · intro seq isReached
    rw [history]
    rcases reached isReached with rfl | before
    · have same : selectVersion ((order.extend txn (model.seq + 1)).sees (model.seq + 1)) chain =
          written := by
        rw [← own]
        refine selectVersion_congr_mentions fun xid inChain => ?_
        by_cases mine : xid = txn
        · simp [sees, ownSees, mine, extend_self]
        · cases found : order xid with
          | none => simp [sees, ownSees, extend_of_ne mine, found, mine]
          | some at_ =>
            have past := Nat.le_succ_of_le (ordered.past xid at_ found)
            have before := settled xid at_ inChain found
            simp [sees, ownSees, extend_of_ne mine, found, mine, past, before]
      simp [same, Model.committedAt]
    · have earlier := Nat.lt_succ_of_le (ordered.reached_le before)
      have same : (order.extend txn (model.seq + 1)).sees seq = order.sees seq :=
        funext (sees_extend_of_lt open_ earlier)
      rw [same, rel.reads seq before]
      simp [Model.committedAt, not_le.mpr earlier]
  · intro seq isReached
    rw [history]
    rcases reached isReached with rfl | before
    · refine iff_of_false (by simp [Model.hasNewerCommit]) ?_
      rintro ⟨xid, at_, -, found, later⟩
      by_cases mine : xid = txn
      · obtain rfl : model.seq + 1 = at_ := by simpa [mine, extend_self] using found
        omega
      · rw [extend_of_ne mine] at found
        have past := ordered.past xid at_ found
        omega
    · have earlier := Nat.lt_succ_of_le (ordered.reached_le before)
      exact iff_of_true (by simpa [Model.hasNewerCommit] using earlier)
        ⟨txn, model.seq + 1, mentioned, extend_self .., earlier⟩
  · rw [history]
    intro write inHistory
    rcases List.mem_cons.mp inHistory with rfl | older
    · exact le_refl _
    · exact Nat.le_succ_of_le (rel.past write older)
  · intro other pending
    simp [history] at pending
  · intro other otherState otherOpened _
    by_cases same : other = txn
    · simp [Model.commit, same] at otherOpened
    · refine rel.strangers other otherState (by simpa [Model.commit, same] using otherOpened) ?_
      simpa [writer] using Ne.symm same

/-- The abort of the transaction with the uncommitted write. -/
theorem abortOwner (rel : RowRel order model row chain) (ordered : OrderOk order model)
    (opened : model.txns txn = some state) (writer : (model.rows row).pending = some txn) :
    RowRel order (model.abort txn state) row (cleanBy (fun xid => decide (xid = txn)) chain) := by
  obtain ⟨open_, real, -⟩ := ordered.unresolved txn state opened
  obtain ⟨state', written, opened', writes, -⟩ := rel.owner txn writer
  obtain rfl : state = state' := by simpa [opened] using opened'
  have history : (model.abort txn state).rows row = ⟨(model.rows row).committed, none⟩ := by
    simp [Model.abort, writes, Model.released, writer]
  have others : ∀ {other otherState}, (model.abort txn state).txns other = some otherState →
      other ≠ txn ∧ model.txns other = some otherState := by
    intro other otherState otherOpened
    by_cases same : other = txn
    · simp [Model.abort, same] at otherOpened
    · exact ⟨same, by simpa [Model.abort, same] using otherOpened⟩
  have reached : ∀ {seq}, (model.abort txn state).Reached seq → model.Reached seq := by
    rintro seq (now | ⟨other, otherState, otherOpened, rfl⟩)
    · exact Or.inl now
    · exact Model.reached_open (others otherOpened).2
  have inOrder : ChainOk order (some txn) chain := writer ▸ rel.inOrder
  constructor
  · rw [history]
    exact inOrder.abort open_ ordered.noneOpen
  · intro seq isReached
    rw [history, selectVersion_cleanBy ?_ (ordered.sees_noTxn seq), rel.reads seq (reached isReached)]
    · rfl
    · intro xid dead
      simp [of_decide_eq_true dead, sees_of_none open_]
  · intro seq isReached
    rw [history]
    have before := rel.newer seq (reached isReached)
    simp only [Model.hasNewerCommit] at before ⊢
    rw [before]
    refine exists_congr fun xid => exists_congr fun at_ => and_congr_left fun committed => ?_
    exact (inOrder.mentions_cleanBy open_ ordered.noneOpen committed.1).symm
  · rw [history]
    exact rel.past
  · intro other pending
    simp [history] at pending
  · intro other otherState otherOpened _
    obtain ⟨different, before⟩ := others otherOpened
    exact rel.strangers other otherState before (by simpa [writer] using Ne.symm different)

end RowRel
end Ferrite.Storage
