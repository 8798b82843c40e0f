import Ferrite.Storage.Simulation

/-!
# Transaction steps of the simulation

Beginning, re-pinning, committing and aborting a transaction keep the engine and
the reference model related. None of them touches a stored chain; a commit
extends the commit order, an abort adds to the ids a reader has to skip.
-/

namespace Ferrite.Storage

open CommitOrder

/-! ## Opening and re-pinning a transaction -/

section

variable {table : TableId} {order : CommitOrder} {engine : Engine} {model : Model} {txn : TxnId}

variable {opened : TxnState} {state : ModelTxn}

theorem Related.begin (rel : Related table order engine model) :
    engine.begin.1 = model.nextTxn ∧ Related table order engine.begin.2 model.begin.2 := by
  have fresh := rel.nextTxn_closed
  have notActive : engine.active.lookup engine.nextTxnId = none := by
    have same := rel.opened engine.nextTxnId
    simpa [fresh, Engine.isActive] using same
  have nowOpen : ∀ probe, engine.begin.2.isActive probe =
      (engine.isActive probe || decide (probe = engine.nextTxnId)) := by
    intro probe
    rw [Engine.isActive, Engine.lookup_begin, Engine.isActive]
    by_cases same : probe = engine.nextTxnId <;> simp [same]
  have modelTxns : ∀ probe, model.begin.2.txns probe =
      if probe = engine.nextTxnId then some ⟨model.seq, fun _ => none⟩ else model.txns probe := by
    intro probe
    simp [Model.begin, rel.nextTxn]
  have reached : ∀ {seq}, model.begin.2.Reached seq → model.Reached seq := by
    rintro seq (now | ⟨other, state, opened, rfl⟩)
    · exact Or.inl now
    · rw [modelTxns] at opened
      split at opened
      · obtain rfl := Option.some.inj opened
        exact Or.inl rfl
      · exact Model.reached_open opened
  have aborted : ∀ {xid}, xid < engine.nextTxnId → engine.begin.2.isAborted xid = engine.isAborted xid := by
    intro xid below
    have notNew : xid ≠ engine.nextTxnId := ne_of_lt below
    rw [Engine.isAborted, Engine.isAborted, nowOpen]
    simp [notNew, Engine.begin, Engine.isCommitted]
  refine ⟨rel.nextTxn, ?_⟩
  constructor
  · refine ⟨rel.ordered.noneOpen, rel.ordered.past, ?_, ?_⟩
    · exact fun xid at_ found => Nat.lt_succ_of_lt (rel.ordered.issued xid at_ found)
    · intro probe state opened
      rw [modelTxns] at opened
      split at opened
      · rename_i new
        obtain rfl := Option.some.inj opened
        subst new
        refine ⟨?_, ?_, ?_, le_refl _⟩
        · cases found : order engine.nextTxnId with
          | none => rfl
          | some at_ => exact absurd rel.nextTxn (ne_of_lt (rel.ordered.issued _ at_ found))
        · have first := rel.ordered.issued 1 0 rel.creator
          rw [← rel.nextTxn] at first
          exact Nat.ne_zero_of_lt first
        · exact rel.nextTxn ▸ Nat.lt_succ_self _
      · obtain ⟨open_, real, issued, pinned⟩ := rel.ordered.unresolved probe state opened
        exact ⟨open_, real, Nat.lt_succ_of_lt issued, pinned⟩
  · exact congrArg (· + 1) rel.nextTxn
  · exact rel.committed
  · exact rel.directory
  · intro probe
    rw [nowOpen, rel.opened, modelTxns]
    by_cases same : probe = engine.nextTxnId <;> simp [same, fresh]
  · intro probe opened state inEngine inModel
    rw [Engine.lookup_begin] at inEngine
    rw [modelTxns] at inModel
    by_cases new : probe = engine.nextTxnId
    · subst new
      rw [notActive, Option.none_or, if_pos rfl] at inEngine
      rw [if_pos rfl] at inModel
      obtain rfl := Option.some.inj inEngine
      obtain rfl := Option.some.inj inModel
      refine ⟨rfl, rfl, le_refl _, Engine.sorted_activeAtStart _ _, ?_, ?_⟩
      · intro xid at_ found
        exact rel.takeSnapshot_line { engine with nextTxnId := engine.nextTxnId + 1 } rfl (Nat.le_succ _) _ found
      · intro other running different
        right
        rw [Engine.mem_activeAtStart]
        rw [nowOpen] at running
        have before : engine.isActive other = true := by simpa [different] using running
        exact ⟨before, different⟩
    · rw [if_neg new, Option.or_none] at inEngine
      rw [if_neg new] at inModel
      refine (rel.txns probe opened state inEngine inModel).transport rfl (Nat.le_succ _) ?_ ?_
      · intro other running
        rw [nowOpen] at running
        by_cases isNew : other = engine.nextTxnId
        · exact Or.inr (le_of_eq isNew.symm)
        · exact Or.inl (by simpa [isNew] using running)
      · exact fun xid at_ found => Or.inl found
  · exact rel.creator
  · exact rel.catalog
  · exact rel.header
  · intro row
    have sameChain : cleanBy engine.begin.2.isAborted (engine.begin.2.loadChain 1 row) =
        cleanBy engine.isAborted (engine.loadChain 1 row) :=
      cleanBy_congr fun version member =>
        ⟨aborted (rel.below row version member).1, aborted (rel.below row version member).2⟩
    rw [sameChain]
    refine (rel.rows row).transport rel.ordered (fun _ _ => rfl) rfl (le_refl _)
      (fun seq isReached => Or.inl (reached isReached)) ?_ ?_
    · intro owner state opened writer
      refine ⟨state, ?_, rfl, le_refl _⟩
      rw [modelTxns, if_neg ?_, opened]
      rintro rfl
      simp [fresh] at opened
    · intro owner state' opened
      rw [modelTxns] at opened
      split at opened
      · obtain rfl := Option.some.inj opened
        exact Or.inl rfl
      · exact Or.inr ⟨state', opened, rfl⟩
  · intro row version member
    obtain ⟨creator, deleter⟩ := rel.below row version member
    exact ⟨Nat.lt_succ_of_lt creator, Nat.lt_succ_of_lt deleter⟩
  · exact rel.fresh

/-- Re-pinning a snapshot moves its line to the current sequence number. -/
theorem Related.snapshot (rel : Related table order engine model) (inEngine : engine.active.lookup txn = some opened)
    (inModel : model.txns txn = some state) :
    Related table order (engine.snapshot txn).2
      { model with
        txns := fun other =>
          if other = txn then some { state with beginSeq := model.seq } else model.txns other } := by
  have running : engine.isActive txn = true := by simp [Engine.isActive, inEngine]
  have line := (rel.ordered.unresolved txn state inModel).2.2.2
  have sameOpen : ∀ probe, (engine.snapshot txn).2.isActive probe = engine.isActive probe := by
    intro probe
    rw [Engine.isActive, Engine.lookup_snapshot running, Engine.isActive]
    by_cases same : probe = txn <;> simp [same]
  have rest : (engine.snapshot txn).2.nextTxnId = engine.nextTxnId ∧ (engine.snapshot txn).2.clog = engine.clog ∧
      (engine.snapshot txn).2.catalog = engine.catalog ∧
      (engine.snapshot txn).2.tables = engine.tables := by
    simp [Engine.snapshot, running]
  obtain ⟨sameNext, sameClog, sameCatalog, sameTables⟩ := rest
  have sameCommitted : (engine.snapshot txn).2.isCommitted = engine.isCommitted := by
    funext xid
    rw [Engine.isCommitted, sameClog, Engine.isCommitted]
  have sameAborted : (engine.snapshot txn).2.isAborted = engine.isAborted := by
    funext xid
    rw [Engine.isAborted, Engine.isAborted, sameOpen, sameCommitted]
  have sameRows : (engine.snapshot txn).2.rowsOf = engine.rowsOf := by
    funext header
    rw [Engine.rowsOf, Engine.rowsOf, sameTables]
  constructor
  · refine ⟨rel.ordered.noneOpen, rel.ordered.past, rel.ordered.issued, ?_⟩
    intro probe probeState probeOpened
    by_cases same : probe = txn
    · obtain ⟨open_, real, issued, -⟩ := rel.ordered.unresolved txn state inModel
      have changed : { state with beginSeq := model.seq } = probeState := by simpa [same] using probeOpened
      subst same changed
      exact ⟨open_, real, issued, le_refl _⟩
    · exact rel.ordered.unresolved probe probeState (by simpa [same] using probeOpened)
  · rw [sameNext, rel.nextTxn]
  · rw [sameCommitted]
    exact rel.committed
  · rw [sameClog]
    exact rel.directory
  · intro probe
    rw [sameOpen, rel.opened]
    by_cases same : probe = txn <;> simp [same, inModel]
  · intro probe probeOpened probeState inEngine' inModel'
    rw [Engine.lookup_snapshot running] at inEngine'
    by_cases same : probe = txn
    · subst same
      have txnRel := rel.txns probe opened state inEngine inModel
      rw [if_pos rfl, inEngine, Option.map_some] at inEngine'
      simp only [if_true] at inModel'
      obtain rfl := Option.some.inj inEngine'
      obtain rfl := Option.some.inj inModel'
      refine ⟨rfl, txnRel.nothingDropped, le_of_eq sameNext.symm, Engine.sorted_activeAtStart _ _,
        fun xid at_ found => rel.takeSnapshot_line engine rfl (le_refl _) _ found, ?_⟩
      intro other otherRunning different
      rw [sameOpen] at otherRunning
      exact Or.inr ((Engine.mem_activeAtStart engine probe other).mpr ⟨otherRunning, different⟩)
    · rw [if_neg same] at inEngine'
      refine (rel.txns probe probeOpened probeState inEngine' (by simpa [same] using inModel')).transport
        rfl (le_of_eq sameNext.symm) (fun other otherRunning => ?_) (fun xid at_ found => Or.inl found)
      rw [sameOpen] at otherRunning
      exact Or.inl otherRunning
  · exact rel.creator
  · rw [sameCatalog]
    exact rel.catalog
  · rw [sameTables]
    exact rel.header
  · intro row
    have sameChain : cleanBy (engine.snapshot txn).2.isAborted ((engine.snapshot txn).2.loadChain 1 row) =
        cleanBy engine.isAborted (engine.loadChain 1 row) := by
      rw [sameAborted, Engine.loadChain, sameRows, Engine.loadChain]
    rw [sameChain]
    refine (rel.rows row).transport rel.ordered (fun _ _ => rfl) rfl (le_refl _) ?_ ?_ ?_
    · rintro seq (now | ⟨other, otherState, otherOpened, rfl⟩)
      · exact Or.inl (Or.inl now)
      · by_cases same : other = txn
        · have changed : { state with beginSeq := model.seq } = otherState := by
            simpa [same] using otherOpened
          exact Or.inr (by simp [← changed])
        · exact Or.inl (Model.reached_open (by simpa [same] using otherOpened))
    · intro owner ownerState ownerOpened _
      by_cases same : owner = txn
      · subst same
        obtain rfl : state = ownerState := by simpa [inModel] using ownerOpened
        exact ⟨{ state with beginSeq := model.seq }, by simp, rfl, line⟩
      · exact ⟨ownerState, by simpa [same] using ownerOpened, rfl, le_refl _⟩
    · intro owner ownerState ownerOpened
      by_cases same : owner = txn
      · subst same
        have changed : { state with beginSeq := model.seq } = ownerState := by simpa using ownerOpened
        exact Or.inr ⟨state, inModel, by simp [← changed]⟩
      · exact Or.inr ⟨ownerState, by simpa [same] using ownerOpened, rfl⟩
  · intro row version member
    rw [Engine.loadChain, sameRows] at member
    rw [sameNext]
    exact rel.below row version member
  · rw [sameRows]
    exact rel.fresh

/-! ## Closing a transaction -/

private theorem Related.closed_txns (rel : Related table order engine model) {order' : CommitOrder} {engine' : Engine}
    {probe : TxnId} (inEngine : (engine.close txn).active.lookup probe = some opened)
    (inModel : (if probe = txn then none else model.txns probe) = some state)
    (sameNext : engine'.nextTxnId = engine.nextTxnId) (sameActive : engine'.active = (engine.close txn).active)
    (newCommits : ∀ xid at_, order' xid = some at_ → order xid = some at_ ∨
      (engine.isActive xid = true ∧ xid = txn ∧ model.seq < at_)) : TxnRel order' engine' probe opened state := by
  rw [Engine.lookup_close] at inEngine
  by_cases same : probe = txn
  · simp [same] at inEngine
  · rw [if_neg same] at inEngine inModel
    refine (rel.txns probe opened state inEngine inModel).transport rfl (le_of_eq sameNext.symm) ?_ ?_
    · intro other running
      rw [Engine.isActive, sameActive, Engine.lookup_close] at running
      by_cases closed : other = txn
      · simp [closed] at running
      · exact Or.inl (by simpa [Engine.isActive, closed] using running)
    · intro xid at_ found
      have line := (rel.ordered.unresolved probe state inModel).2.2.2
      refine (newCommits xid at_ found).imp_right ?_
      rintro ⟨running, rfl, later⟩
      exact ⟨running, Ne.symm same, lt_of_le_of_lt line later⟩

/-- Another commit log with the same bits. -/
theorem Related.withClog (rel : Related table order engine model) {clog : Clog}
    (sameBits : ∀ xid, clog.isCommitted xid = engine.clog.isCommitted xid)
    (directory : clog.segments ≤ clogDirectoryCapacity) : Related table order { engine with clog := clog } model := by
  have sameAborted : ({ engine with clog := clog } : Engine).isAborted = engine.isAborted := by
    funext xid
    simp only [Engine.isAborted, Engine.isCommitted, sameBits]
    rfl
  refine ⟨rel.ordered, rel.nextTxn, ?_, directory, rel.opened, ?_, rel.creator, rel.catalog,
    rel.header, ?_, rel.below, rel.fresh⟩
  · intro xid
    exact (sameBits xid).trans (rel.committed xid)
  · intro txn opened state inEngine inModel
    exact (rel.txns txn opened state inEngine inModel).transport rfl (le_refl _)
      (fun _ running => Or.inl running) (fun _ _ found => Or.inl found)
  · intro row
    rw [sameAborted]
    exact rel.rows row

/-- A commit below the ceiling of the commit log. -/
theorem Related.commit (rel : Related table order engine model) (inEngine : engine.active.lookup txn = some opened)
    (inModel : model.txns txn = some state) (belowCeiling : txn < maxTxnId) :
    (Engine.commitWith none engine txn).1 = .ok () ∧
      Related table (order.extend txn (model.seq + 1)) (Engine.commitWith none engine txn).2
        (model.commit txn state) := by
  obtain ⟨open_, real, issued, line⟩ := rel.ordered.unresolved txn state inModel
  have txnRel := rel.txns txn opened state inEngine inModel
  have running : engine.isActive txn = true := by simp [Engine.isActive, inEngine]
  have fits : (engine.clog.markCommitted txn).segments ≤ clogDirectoryCapacity :=
    max_le rel.directory (segment_le_capacity belowCeiling)
  have result : Engine.commitWith none engine txn =
      (.ok (), { engine with clog := engine.clog.markCommitted txn }.close txn) := by
    simp [Engine.commitWith, Engine.finishCommit, inEngine, not_lt.mpr fits, txnRel.nothingDropped]
  have extended : ∀ {xid at_}, order.extend txn (model.seq + 1) xid = some at_ →
      order xid = some at_ ∨ (xid = txn ∧ at_ = model.seq + 1) := by
    intro xid at_ found
    by_cases same : xid = txn
    · refine Or.inr ⟨same, ?_⟩
      simpa [same, extend_self] using found.symm
    · exact Or.inl (by rwa [extend_of_ne same] at found)
  rw [result]
  refine ⟨rfl, ?_⟩
  have nowCommitted : ∀ xid, ({ engine with clog := engine.clog.markCommitted txn }.close txn).isCommitted xid =
      (decide (xid = txn) || engine.isCommitted xid) := fun xid =>
    Clog.isCommitted_markCommitted engine.clog txn xid
  have nowOpen : ∀ xid, ({ engine with clog := engine.clog.markCommitted txn }.close txn).isActive xid =
      (decide (xid ≠ txn) && engine.isActive xid) := by
    intro xid
    rw [Engine.isActive, Engine.lookup_close, Engine.isActive]
    by_cases same : xid = txn <;> simp [same]
  have sameAborted : ({ engine with clog := engine.clog.markCommitted txn }.close txn).isAborted =
      engine.isAborted := by
    funext xid
    rw [Engine.isAborted, Engine.isAborted, nowCommitted, nowOpen]
    by_cases same : xid = txn
    · subst same
      simp [real, running]
    · simp [same]
  constructor
  · refine ⟨?_, ?_, ?_, ?_⟩
    · rw [extend_of_ne (Ne.symm real)]
      exact rel.ordered.noneOpen
    · intro xid at_ found
      rcases extended found with before | ⟨-, rfl⟩
      · exact Nat.le_succ_of_le (rel.ordered.past xid at_ before)
      · exact le_refl _
    · intro xid at_ found
      rcases extended found with before | ⟨rfl, -⟩
      · exact rel.ordered.issued xid at_ before
      · exact issued
    · intro probe probeState probeOpened
      by_cases same : probe = txn
      · simp [Model.commit, same] at probeOpened
      · obtain ⟨probeOpen, probeReal, probeIssued, probeLine⟩ :=
          rel.ordered.unresolved probe probeState (by simpa [Model.commit, same] using probeOpened)
        rw [extend_of_ne same]
        exact ⟨probeOpen, probeReal, probeIssued, Nat.le_succ_of_le probeLine⟩
  · exact rel.nextTxn
  · intro xid
    rw [nowCommitted, rel.committed]
    by_cases same : xid = txn
    · simp [same, extend_self]
    · simp [same, extend_of_ne same]
  · exact fits
  · intro probe
    rw [nowOpen, rel.opened]
    by_cases same : probe = txn <;> simp [Model.commit, same]
  · intro probe probeOpened probeState inEngine' inModel'
    refine rel.closed_txns inEngine' inModel' rfl rfl fun xid at_ found => ?_
    refine (extended found).imp_right ?_
    rintro ⟨rfl, rfl⟩
    exact ⟨running, rfl, Nat.lt_succ_self _⟩
  · rw [extend_of_ne]
    · exact rel.creator
    · rintro rfl
      simp [rel.creator] at open_
  · exact rel.catalog
  · exact rel.header
  · intro row
    rw [sameAborted]
    by_cases writer : (model.rows row).pending = some txn
    · exact (rel.rows row).commitOwner rel.ordered inModel writer
    · have unmentioned := (rel.rows row).stranger_unmentioned rel.ordered inModel writer
      have sameRow : (model.commit txn state).rows row = model.rows row := by
        simp [Model.commit, (rel.rows row).strangers txn state inModel writer]
      refine (rel.rows row).transport rel.ordered ?_ sameRow (Nat.le_succ _) ?_ ?_ ?_
      · intro xid mentioned
        exact extend_of_ne fun same => unmentioned (same ▸ mentioned)
      · rintro seq (rfl | ⟨other, otherState, otherOpened, rfl⟩)
        · exact Or.inr (Nat.le_succ _)
        · by_cases same : other = txn
          · simp [Model.commit, same] at otherOpened
          · exact Or.inl (Model.reached_open (by simpa [Model.commit, same] using otherOpened))
      · intro owner ownerState ownerOpened pending
        have different : owner ≠ txn := by
          rintro rfl
          exact writer pending
        exact ⟨ownerState, by simpa [Model.commit, different] using ownerOpened, rfl, le_refl _⟩
      · intro owner ownerState ownerOpened
        by_cases same : owner = txn
        · simp [Model.commit, same] at ownerOpened
        · exact Or.inr ⟨ownerState, by simpa [Model.commit, same] using ownerOpened, rfl⟩
  · exact rel.below
  · intro row beyond
    obtain ⟨missing, empty⟩ := rel.fresh row beyond
    refine ⟨missing, ?_⟩
    have writer : (model.rows row).pending ≠ some txn := by simp [empty]
    simpa [Model.commit, (rel.rows row).strangers txn state inModel writer] using empty

theorem Related.abort (rel : Related table order engine model) (inModel : model.txns txn = some state) :
    Related table order (engine.close txn) (model.abort txn state) := by
  obtain ⟨open_, real, -⟩ := rel.ordered.unresolved txn state inModel
  have others : ∀ {other otherState}, (model.abort txn state).txns other = some otherState →
      other ≠ txn ∧ model.txns other = some otherState := by
    intro other otherState otherOpened
    by_cases same : other = txn
    · simp [Model.abort, same] at otherOpened
    · exact ⟨same, by simpa [Model.abort, same] using otherOpened⟩
  have nowOpen : ∀ xid, (engine.close txn).isActive xid = (decide (xid ≠ txn) && engine.isActive xid) := by
    intro xid
    rw [Engine.isActive, Engine.lookup_close, Engine.isActive]
    by_cases same : xid = txn <;> simp [same]
  have nowAborted : (engine.close txn).isAborted = fun xid => engine.isAborted xid || decide (xid = txn) := by
    funext xid
    have sameCommitted : (engine.close txn).isCommitted xid = engine.isCommitted xid := rfl
    rw [Engine.isAborted, Engine.isAborted, nowOpen, sameCommitted, rel.committed]
    by_cases same : xid = txn
    · subst same
      simp [real, open_]
    · simp [same]
  constructor
  · refine ⟨rel.ordered.noneOpen, rel.ordered.past, rel.ordered.issued, ?_⟩
    intro probe probeState probeOpened
    exact rel.ordered.unresolved probe probeState (others probeOpened).2
  · exact rel.nextTxn
  · exact rel.committed
  · exact rel.directory
  · intro probe
    rw [nowOpen, rel.opened]
    by_cases same : probe = txn <;> simp [Model.abort, same]
  · intro probe probeOpened probeState inEngine' inModel'
    exact rel.closed_txns inEngine' inModel' rfl rfl fun xid at_ found => Or.inl found
  · exact rel.creator
  · exact rel.catalog
  · exact rel.header
  · intro row
    rw [nowAborted, cleanBy_also real]
    by_cases writer : (model.rows row).pending = some txn
    · exact (rel.rows row).abortOwner rel.ordered inModel writer
    · have unmentioned := (rel.rows row).stranger_unmentioned rel.ordered inModel writer
      have untouched : cleanBy (fun xid => decide (xid = txn))
            (cleanBy engine.isAborted ((engine.close txn).loadChain 1 row)) =
          cleanBy engine.isAborted (engine.loadChain 1 row) := by
        refine cleanBy_eq_self fun version member => ⟨?_, ?_⟩
        · exact decide_eq_false fun same => unmentioned ⟨version, member, Or.inl same⟩
        · exact decide_eq_false fun same => unmentioned ⟨version, member, Or.inr same⟩
      have sameRow : (model.abort txn state).rows row = model.rows row := by
        simp [Model.abort, (rel.rows row).strangers txn state inModel writer]
      rw [untouched]
      refine (rel.rows row).transport rel.ordered (fun _ _ => rfl) sameRow (le_refl _) ?_ ?_ ?_
      · rintro seq (now | ⟨other, otherState, otherOpened, rfl⟩)
        · exact Or.inl (Or.inl now)
        · exact Or.inl (Model.reached_open (others otherOpened).2)
      · intro owner ownerState ownerOpened pending
        have different : owner ≠ txn := by
          rintro rfl
          exact writer pending
        exact ⟨ownerState, by simpa [Model.abort, different] using ownerOpened, rfl, le_refl _⟩
      · intro owner ownerState ownerOpened
        exact Or.inr ⟨ownerState, (others ownerOpened).2, rfl⟩
  · exact rel.below
  · intro row beyond
    obtain ⟨missing, empty⟩ := rel.fresh row beyond
    refine ⟨missing, ?_⟩
    have writer : (model.rows row).pending ≠ some txn := by simp [empty]
    simpa [Model.abort, (rel.rows row).strangers txn state inModel writer] using empty

end
end Ferrite.Storage
