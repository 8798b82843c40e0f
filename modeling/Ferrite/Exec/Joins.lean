import Ferrite.Exec.Stream
import Ferrite.Exec.Subquery
import Ferrite.Logical.Join

/-!
# The nested loop and the relational join

The nested loop takes the widths it pads with from the first tuple of each input. As
long as the inputs are there it computes the relational join of its rows; a preserved
row that meets an empty side is padded with nothing at all.
-/

namespace Ferrite.Stream

open Plan Eval Logical Session

variable {P : Type}

/-! ## The relational join -/

/-- Pairs side by side, lone rows padded to the full width. -/
def padded (leftWidth rightWidth : Nat) : Pairing Row Row Row where
  both := concat
  leftOnly row := concat row (nulls rightWidth)
  rightOnly row := concat (nulls leftWidth) row

/-- The join of two lists of rows, under a condition on the joined row. -/
def relationalJoin (joinType : JoinType) (leftWidth rightWidth : Nat) (condition : Row → Bool)
    (left right : List Row) : List Row :=
  joinRows (padded leftWidth rightWidth) joinType.preservesLeft joinType.preservesRight
    (fun l r => condition (concat l r)) left right

/-- Whether a predicate is true on a row. -/
def Session.accepts (session : Session) (predicate : Option (PhysExpr P)) (row : Row) : Bool :=
  match session.keeps predicate row with
  | .ok keep => keep
  | .error _ => false

private theorem Session.keeps_eq_accepts {session : Session} {predicate : Option (PhysExpr P)} {row : Row}
    (quiet : ∃ keep, session.keeps predicate row = .ok keep) :
    session.keeps predicate row = .ok (session.accepts predicate row) := by
  obtain ⟨keep, kept⟩ := quiet
  rw [accepts, kept]

/-! ## The loop -/

section

variable (session : Session) (predicate : Option (PhysExpr P)) (inner : List Tuple)

/-- There is room for that many rows. -/
def Session.Room (rows : Nat) : Prop := session.maxRows = 0 ∨ rows ≤ session.maxRows

/-- No pair makes the predicate raise. -/
def Session.Quiet (outer : List Tuple) : Prop := ∀ left ∈ outer, ∀ right ∈ inner, ∃ keep,
    session.keeps predicate (concat left.row right.row) = .ok keep

/-- The pairs a left row forms, as the predicate has it. -/
def Session.pairs (left : Tuple) (right : Tuple) : Bool :=
  session.accepts predicate (concat left.row right.row)

variable {session predicate inner}

variable {state : JoinState} {left right : Tuple} {rest : List Tuple} {position : Nat}

variable {rows : Nat} {row : Row} {any : Bool} {before pair : Tuple → Bool} {outer : List Tuple}

private theorem Session.Room.mono {fewer : Nat} (room : session.Room rows) (fits : fewer ≤ rows) : session.Room fewer :=
  room.imp_right fits.trans

private theorem Session.admitRows_of_room (room : session.Room rows) : session.admitRows rows = .ok () := if_pos room

private theorem Session.emit_of_room (room : session.Room (state.out.length + 1)) :
    session.emit state row = .ok { state with out := state.out ++ [⟨none, row⟩] } := by
  have admitted : session.admitRows (state.out ++ [(⟨none, row⟩ : Tuple)]).length = .ok () := by
    apply admitRows_of_room
    simpa using room
  simp only [emit, admitted, bind, Except.bind, pure, Except.pure]

private theorem Session.joinInner_match (kept : session.keeps predicate (concat left.row right.row) = .ok true)
    (room : session.Room (state.out.length + 1)) : session.joinInner predicate left position any state (right :: rest) =
      session.joinInner predicate left (position + 1) true
        ⟨state.matched.set position true, state.out ++ [⟨none, concat left.row right.row⟩]⟩ rest := by
  have emitted : session.emit { state with matched := state.matched.set position true }
      (concat left.row right.row) = .ok ⟨state.matched.set position true,
        state.out ++ [⟨none, concat left.row right.row⟩]⟩ :=
    emit_of_room room
  rw [joinInner, kept]
  simp only [bind, Except.bind, if_true, emitted]

private theorem Session.joinInner_skip (skipped : session.keeps predicate (concat left.row right.row) = .ok false) :
    session.joinInner predicate left position any state (right :: rest) =
      session.joinInner predicate left (position + 1) any state rest := by
  rw [joinInner, skipped]
  rfl

/-- The marks while one left row is compared: the rows done carry it, the others not. -/
def marks (before pair : Tuple → Bool) (done rest : List Tuple) : List Bool :=
  done.map (fun right => before right || pair right) ++ rest.map before

private theorem marks_set (done rest : List Tuple) (paired : pair right = true) :
    (marks before pair done (right :: rest)).set done.length true = marks before pair (done ++ [right]) rest := by
  rw [marks, List.set_append_right _ _ (by simp)]
  simp [marks, paired]

private theorem marks_skip (done rest : List Tuple) (unpaired : pair right = false) :
    marks before pair done (right :: rest) = marks before pair (done ++ [right]) rest := by
  simp [marks, unpaired]

/-- One outer row: its matches are emitted in order, and marked. -/
theorem Session.joinInner_eq (before : Tuple → Bool) (rest done : List Tuple) (any : Bool) (out : List Tuple)
    (quiet : ∀ right ∈ rest, ∃ keep, session.keeps predicate (concat left.row right.row) = .ok keep)
    (room : session.Room (out.length + (rest.filter (session.pairs predicate left)).length)) :
    session.joinInner predicate left done.length any
        ⟨marks before (session.pairs predicate left) done rest, out⟩ rest =
      .ok (any || rest.any (session.pairs predicate left),
        ⟨(done ++ rest).map fun right => before right || session.pairs predicate left right,
          out ++ (rest.filter (session.pairs predicate left)).map fun right =>
            ⟨none, concat left.row right.row⟩⟩) := by
  induction rest generalizing done any out with
  | nil => simp [joinInner, marks]
  | cons right rest ih =>
    have kept : session.keeps predicate (concat left.row right.row) =
        .ok (session.pairs predicate left right) :=
      keeps_eq_accepts (quiet right List.mem_cons_self)
    have later : ∀ other ∈ rest, ∃ keep, session.keeps predicate (concat left.row other.row) = .ok keep :=
      fun other member => quiet other (List.mem_cons_of_mem right member)
    have advanced : done.length + 1 = (done ++ [right]).length := by simp
    cases pair : session.pairs predicate left right with
    | true =>
      have here : session.Room (out.length + 1) := room.mono (by simp [pair])
      have further : session.Room ((out ++ [(⟨none, concat left.row right.row⟩ : Tuple)]).length +
          (rest.filter (session.pairs predicate left)).length) :=
        room.mono (by simp [pair]; omega)
      rw [joinInner_match (kept.trans (congrArg _ pair)) here, marks_set done rest pair, advanced,
        ih _ _ _ later further]
      simp [pair]
    | false =>
      rw [joinInner_skip (kept.trans (congrArg _ pair)), marks_skip done rest pair, advanced,
        ih _ _ _ later (room.mono (by simp [pair]))]
      simp [pair]

/-- Tuples joined as their rows are. -/
def paddedTuples (leftWidth rightWidth : Nat) : Pairing Tuple Tuple Row where
  both left right := concat left.row right.row
  leftOnly left := concat left.row (nulls rightWidth)
  rightOnly right := concat (nulls leftWidth) right.row

private theorem isEmpty_filter {α : Type} (keep : α → Bool) (list : List α) :
    (list.filter keep).isEmpty = !list.any keep := by
  rw [Bool.eq_iff_iff]
  simp

section

variable (joinType : JoinType) (pairing : Pairing Tuple Tuple Row)

/-- What a left row contributes to the output. -/
def Session.contribution (session : Session) (predicate : Option (PhysExpr P)) (inner : List Tuple)
    (left : Tuple) : List Row :=
  leftRows pairing joinType.preservesLeft (session.pairs predicate) inner left

/-- The whole output. -/
def Session.joinedRows (session : Session) (predicate : Option (PhysExpr P)) (outer inner : List Tuple) : List Row :=
  joinRows pairing joinType.preservesLeft joinType.preservesRight (session.pairs predicate) outer inner

end

variable {joinType : JoinType} (leftWidth rightWidth : Nat)

private theorem Session.joinLeft_eq (left : Tuple) (rest : List Tuple) (before : Tuple → Bool) (out : List Tuple)
    (quiet : ∀ right ∈ inner, ∃ keep, session.keeps predicate (concat left.row right.row) = .ok keep)
    (room : session.Room (out.length + (session.contribution joinType (paddedTuples leftWidth rightWidth)
      predicate inner left).length)) :
    session.joinOuter joinType predicate inner rightWidth ⟨inner.map before, out⟩ (left :: rest) =
      session.joinOuter joinType predicate inner rightWidth
        ⟨inner.map (fun right => before right || session.pairs predicate left right),
          out ++ (session.contribution joinType (paddedTuples leftWidth rightWidth) predicate inner left).map
            (Tuple.mk none)⟩ rest := by
  by_cases lone : (!inner.any (session.pairs predicate left) && joinType.preservesLeft) = true
  · have none : inner.filter (session.pairs predicate left) = [] := by
      rw [← List.isEmpty_iff, isEmpty_filter]
      exact (Bool.and_eq_true_iff.mp lone).1
    have alone : session.contribution joinType (paddedTuples leftWidth rightWidth) predicate inner left =
        [concat left.row (nulls rightWidth)] := by
      rw [contribution, leftRows, none, (Bool.and_eq_true_iff.mp lone).2]
      rfl
    rw [alone] at room ⊢
    have found : session.joinInner predicate left 0 false ⟨inner.map before, out⟩ inner = _ :=
      joinInner_eq before inner [] false out quiet (room.mono (by simp [none]))
    rw [joinOuter, found]
    simp only [bind, Except.bind, Bool.false_or, List.nil_append]
    rw [if_pos lone, none, List.map_nil, List.append_nil, emit_of_room room]
    rfl
  · have pairs : session.contribution joinType (paddedTuples leftWidth rightWidth) predicate inner left =
        (inner.filter (session.pairs predicate left)).map fun right => concat left.row right.row := by
      rw [contribution, leftRows, if_neg]
      · rfl
      · rw [isEmpty_filter, Bool.and_comm]
        exact lone
    rw [pairs] at room ⊢
    have found : session.joinInner predicate left 0 false ⟨inner.map before, out⟩ inner = _ :=
      joinInner_eq before inner [] false out quiet (room.mono (by simp))
    rw [joinOuter, found]
    simp only [bind, Except.bind, Bool.false_or, List.nil_append]
    rw [if_neg lone, List.map_map]
    rfl

private theorem Session.joinOuter_eq (outer : List Tuple) (before : Tuple → Bool) (out : List Tuple)
    (quiet : session.Quiet predicate inner outer)
    (room : session.Room (out.length + (outer.flatMap (session.contribution joinType
      (paddedTuples leftWidth rightWidth) predicate inner)).length)) :
    session.joinOuter joinType predicate inner rightWidth ⟨inner.map before, out⟩ outer =
      .ok ⟨inner.map fun right => before right || outer.any fun left => session.pairs predicate left right,
        out ++ (outer.flatMap (session.contribution joinType (paddedTuples leftWidth rightWidth) predicate
          inner)).map (Tuple.mk none)⟩ := by
  induction outer generalizing before out with
  | nil => simp [joinOuter]
  | cons left rest ih =>
    rw [List.flatMap_cons, List.length_append] at room
    rw [joinLeft_eq leftWidth rightWidth left rest before out (quiet left List.mem_cons_self)
        (room.mono (by omega)),
      ih _ _ (fun other member => quiet other (List.mem_cons_of_mem left member))
        (room.mono (by rw [List.length_append, List.length_map]; omega))]
    simp [Bool.or_assoc, List.append_assoc]

private theorem Session.joinUnmatched_skip (marked : state.matched.getD position false = true) :
    session.joinUnmatched leftWidth position state (right :: rest) =
      session.joinUnmatched leftWidth (position + 1) state rest := by
  rw [joinUnmatched, if_pos marked]

private theorem Session.joinUnmatched_emit (unmarked : state.matched.getD position false = false)
    (room : session.Room (state.out.length + 1)) : session.joinUnmatched leftWidth position state (right :: rest) =
      session.joinUnmatched leftWidth (position + 1)
        ⟨state.matched, state.out ++ [⟨none, concat (nulls leftWidth) right.row⟩]⟩ rest := by
  rw [joinUnmatched, unmarked, emit_of_room room]
  rfl

/-- The inner rows without a mark, from a position on. -/
theorem Session.joinUnmatched_eq (marked : Tuple → Bool) (rest done out : List Tuple)
    (room : session.Room (out.length + (rest.filter fun right => !marked right).length)) :
    session.joinUnmatched leftWidth done.length ⟨(done ++ rest).map marked, out⟩ rest =
      .ok ⟨(done ++ rest).map marked, out ++ (rest.filter fun right => !marked right).map fun right =>
          ⟨none, concat (nulls leftWidth) right.row⟩⟩ := by
  induction rest generalizing done out with
  | nil => simp [joinUnmatched]
  | cons right rest ih =>
    have mark : ((done ++ right :: rest).map marked).getD done.length false = marked right := by simp
    have regrouped : done ++ right :: rest = (done ++ [right]) ++ rest := by simp
    have advanced : done.length + 1 = (done ++ [right]).length := by simp
    cases isMarked : marked right with
    | true =>
      rw [joinUnmatched_skip leftWidth (mark.trans isMarked), regrouped, advanced,
        ih _ _ (room.mono (by simp [isMarked]))]
      simp [isMarked]
    | false =>
      have here : session.Room (out.length + 1) := room.mono (by simp [isMarked])
      rw [joinUnmatched_emit leftWidth (mark.trans isMarked) here, regrouped, advanced,
        ih _ _ (room.mono (by simp [isMarked]; omega))]
      simp [isMarked]

/-- The nested loop is the join of its tuples, padded to the widths it has seen. -/
theorem Session.nestedLoopJoin_eq (quiet : session.Quiet predicate inner outer)
    (room : session.Room (session.joinedRows joinType
      (paddedTuples (firstWidth outer) (firstWidth inner)) predicate outer inner).length) :
    session.nestedLoopJoin outer inner joinType predicate =
      .ok ((session.joinedRows joinType (paddedTuples (firstWidth outer) (firstWidth inner))
        predicate outer inner).map (Tuple.mk none)) := by
  have start : List.replicate inner.length false = inner.map fun _ => false := by simp
  rw [joinedRows, joinRows, List.length_append] at room
  have matched : session.joinOuter joinType predicate inner (firstWidth inner)
      ⟨inner.map fun _ => false, []⟩ outer = _ :=
    joinOuter_eq (firstWidth outer) (firstWidth inner) outer (fun _ => false) [] quiet
      (room.mono (by rw [List.length_nil, Nat.zero_add]; exact Nat.le_add_right _ _))
  rw [nestedLoopJoin, start, matched, joinedRows, joinRows]
  simp only [bind, Except.bind, Bool.false_or, List.nil_append]
  cases preserved : joinType.preservesRight with
  | false =>
    rw [if_neg Bool.false_ne_true, if_neg Bool.false_ne_true, List.append_nil]
    rfl
  | true =>
    have unmatched : session.joinUnmatched (firstWidth outer) 0
        ⟨inner.map fun right => outer.any fun left => session.pairs predicate left right,
          (outer.flatMap (session.contribution joinType (paddedTuples (firstWidth outer)
            (firstWidth inner)) predicate inner)).map (Tuple.mk none)⟩ inner = _ :=
      joinUnmatched_eq (firstWidth outer)
        (fun right => outer.any fun left => session.pairs predicate left right) inner [] _
        (room.mono (by rw [if_pos preserved, List.length_map, List.length_map]; exact Nat.le_refl _))
    rw [if_pos rfl, if_pos rfl, unmatched]
    simp only [List.map_append, List.map_map]
    rfl

/-! ### The row limit -/

private theorem Session.room_of_emit {after : JoinState} (emitted : session.emit state row = .ok after) :
    session.Room after.out.length := by
  obtain ⟨_, admitted, same⟩ := bind_eq_ok.mp emitted
  cases same
  rw [admitRows] at admitted
  split at admitted
  · rename_i room
    exact room
  · cases admitted

private theorem Session.room_of_joinInner :
    ∀ (rest : List Tuple) (position : Nat) (any : Bool) (state : JoinState) (result : Bool × JoinState),
      session.Room state.out.length →
      session.joinInner predicate left position any state rest = .ok result → session.Room result.2.out.length
  | [], _, _, _, _, room, found => by
    cases found
    exact room
  | right :: rest, position, any, state, result, room, found => by
    obtain ⟨keep, _, found⟩ := bind_eq_ok.mp found
    cases keep with
    | false => exact room_of_joinInner rest _ _ _ _ room found
    | true =>
      obtain ⟨emitted, sent, found⟩ := bind_eq_ok.mp found
      exact room_of_joinInner rest _ _ _ _ (room_of_emit sent) found

private theorem Session.room_of_joinOuter {joinType : JoinType} {innerWidth : Nat} :
    ∀ (outer : List Tuple) (state after : JoinState), session.Room state.out.length →
      session.joinOuter joinType predicate inner innerWidth state outer = .ok after → session.Room after.out.length
  | [], _, _, room, found => by
    cases found
    exact room
  | left :: rest, state, after, room, found => by
    obtain ⟨result, tried, found⟩ := bind_eq_ok.mp found
    have here := room_of_joinInner _ _ _ _ _ room tried
    split at found
    · obtain ⟨emitted, sent, found⟩ := bind_eq_ok.mp found
      exact room_of_joinOuter rest _ _ (room_of_emit sent) found
    · exact room_of_joinOuter rest _ _ here found

private theorem Session.room_of_joinUnmatched {outerWidth : Nat} :
    ∀ (rest : List Tuple) (position : Nat) (state after : JoinState), session.Room state.out.length →
      session.joinUnmatched outerWidth position state rest = .ok after → session.Room after.out.length
  | [], _, _, _, room, found => by
    cases found
    exact room
  | right :: rest, position, state, after, room, found => by
    rw [joinUnmatched] at found
    split at found
    · exact room_of_joinUnmatched rest _ _ _ room found
    · obtain ⟨emitted, sent, found⟩ := bind_eq_ok.mp found
      exact room_of_joinUnmatched rest _ _ _ (room_of_emit sent) found

/-- The loop never returns more rows than the limit allows. -/
theorem Session.room_of_nestedLoopJoin {joinType : JoinType} {rows : List Tuple}
    (ran : session.nestedLoopJoin outer inner joinType predicate = .ok rows) : session.Room rows.length := by
  obtain ⟨joined, looped, ran⟩ := bind_eq_ok.mp ran
  have here := room_of_joinOuter _ _ _ (Or.inr (Nat.zero_le _)) looped
  split at ran
  · obtain ⟨all, unmatched, same⟩ := bind_eq_ok.mp ran
    cases same
    exact room_of_joinUnmatched _ _ _ _ here unmatched
  · cases ran
    exact here

end

/-! ## Widths -/

section

variable {joinType : JoinType} {leftWidth rightWidth : Nat} {outer inner : List Tuple}

private theorem Session.joinedRows_eq (session : Session) (predicate : Option (PhysExpr P)) :
    session.joinedRows joinType (paddedTuples leftWidth rightWidth) predicate outer inner =
      relationalJoin joinType leftWidth rightWidth (session.accepts predicate)
        (outer.map Tuple.row) (inner.map Tuple.row) := by
  rw [relationalJoin, joinRows_map]
  rfl

/-- A side that has to be padded shows its width: the left rows of a left-preserving
join meet at least one right row, and the other way round. -/
def PaddingSeen (joinType : JoinType) (leftWidth rightWidth : Nat) (outer inner : List Tuple) : Prop :=
  (joinType.preservesLeft = true → inner = [] → outer = [] ∨ rightWidth = 0) ∧
    (joinType.preservesRight = true → outer = [] → inner = [] ∨ leftWidth = 0)

private theorem firstWidth_eq {tuples : List Tuple} {width : Nat} (some : tuples ≠ [])
    (widths : ∀ tuple ∈ tuples, tuple.row.values.length = width) : firstWidth tuples = width := by
  cases tuples with
  | nil => exact absurd rfl some
  | cons tuple rest => exact widths tuple List.mem_cons_self

private theorem padding_injective {rows : List Row} {width width' : Nat} (some : rows ≠ [])
    (same : rows.map (fun row => concat row (nulls width)) =
      rows.map fun row => concat row (nulls width')) : width = width' := by
  cases rows with
  | nil => exact absurd rfl some
  | cons row rest =>
    have first := (List.cons.inj same).1
    simpa [concat, nulls] using first

private theorem padding_injective' {rows : List Row} {width width' : Nat} (some : rows ≠ [])
    (same : rows.map (fun row => concat (nulls width) row) =
      rows.map fun row => concat (nulls width') row) : width = width' := by
  cases rows with
  | nil => exact absurd rfl some
  | cons row rest =>
    have first := congrArg (List.length ∘ Row.values) (List.cons.inj same).1
    simpa [concat, nulls] using first

private theorem relationalJoin_right_nil (condition : Row → Bool) (left : List Row) :
    relationalJoin joinType leftWidth rightWidth condition left [] =
      if joinType.preservesLeft then left.map fun row => concat row (nulls rightWidth) else [] := by
  have contribution : ∀ row, leftRows (padded leftWidth rightWidth) joinType.preservesLeft
      (fun l r => condition (concat l r)) [] row =
      if joinType.preservesLeft then [concat row (nulls rightWidth)] else [] := by
    intro row
    cases joinType.preservesLeft <;> rfl
  rw [relationalJoin, joinRows, List.flatMap_congr fun row _ => contribution row]
  cases joinType.preservesLeft <;> simp [unmatchedRight, List.map_eq_flatMap]

private theorem relationalJoin_left_nil (condition : Row → Bool) (right : List Row) :
    relationalJoin joinType leftWidth rightWidth condition [] right =
      if joinType.preservesRight then right.map fun row => concat (nulls leftWidth) row else [] := by
  cases preserved : joinType.preservesRight <;> simp [relationalJoin, joinRows, unmatchedRight, padded, preserved]

/-- The widths seen are as good as the declared ones exactly when the padding is seen. -/
theorem relationalJoin_firstWidth_iff (condition : Row → Bool)
    (outerWidths : ∀ tuple ∈ outer, tuple.row.values.length = leftWidth)
    (innerWidths : ∀ tuple ∈ inner, tuple.row.values.length = rightWidth) :
    relationalJoin joinType (firstWidth outer) (firstWidth inner) condition
        (outer.map Tuple.row) (inner.map Tuple.row) =
      relationalJoin joinType leftWidth rightWidth condition (outer.map Tuple.row) (inner.map Tuple.row) ↔
    PaddingSeen joinType leftWidth rightWidth outer inner := by
  by_cases noInner : inner = []
  · by_cases noOuter : outer = []
    · subst noInner noOuter
      simp [PaddingSeen, relationalJoin_right_nil]
    · have seen := firstWidth_eq noOuter outerWidths
      subst noInner
      rw [List.map_nil, relationalJoin_right_nil, relationalJoin_right_nil, PaddingSeen]
      cases preserved : joinType.preservesLeft with
      | false => simp [noOuter]
      | true =>
        have rows : outer.map Tuple.row ≠ [] := by simpa using noOuter
        constructor
        · intro same
          have zero : 0 = rightWidth := padding_injective rows same
          simp [noOuter, zero.symm]
        · rintro ⟨left, _⟩
          rcases left rfl rfl with none | zero
          · exact absurd none noOuter
          · rw [zero]
            rfl
  · have innerSeen := firstWidth_eq noInner innerWidths
    by_cases noOuter : outer = []
    · subst noOuter
      rw [List.map_nil, relationalJoin_left_nil, relationalJoin_left_nil, PaddingSeen]
      cases preserved : joinType.preservesRight with
      | false => simp [noInner]
      | true =>
        have rows : inner.map Tuple.row ≠ [] := by simpa using noInner
        constructor
        · intro same
          have zero : 0 = leftWidth := padding_injective' rows same
          simp [noInner, zero.symm]
        · rintro ⟨_, right⟩
          rcases right rfl rfl with none | zero
          · exact absurd none noInner
          · rw [zero]
            rfl
    · have outerSeen := firstWidth_eq noOuter outerWidths
      rw [innerSeen, outerSeen]
      simp [PaddingSeen, noInner, noOuter]

end

/-! ## The planner's join nodes -/

private theorem length_relationalJoin_row {joinType : JoinType} {leftWidth rightWidth : Nat} {condition : Row → Bool}
    {left right : List Row} (leftWidths : ∀ row ∈ left, row.values.length = leftWidth)
    (rightWidths : ∀ row ∈ right, row.values.length = rightWidth) {row : Row}
    (joined : row ∈ relationalJoin joinType leftWidth rightWidth condition left right) :
    row.values.length = leftWidth + rightWidth := by
  rw [relationalJoin, joinRows, List.mem_append] at joined
  rcases joined with fromLeft | fromRight
  · obtain ⟨l, inLeft, contributed⟩ := List.mem_flatMap.mp fromLeft
    rw [leftRows] at contributed
    split at contributed
    · rw [List.mem_singleton] at contributed
      rw [contributed]
      simp [padded, concat, nulls, leftWidths l inLeft]
    · obtain ⟨r, found, rfl⟩ := List.mem_map.mp contributed
      simp [padded, concat, leftWidths l inLeft, rightWidths r (List.mem_filter.mp found).1]
  · split at fromRight
    · obtain ⟨r, found, rfl⟩ := List.mem_map.mp fromRight
      simp [padded, concat, nulls, rightWidths r (List.mem_filter.mp found).1]
    · exact absurd fromRight List.not_mem_nil

section

variable {Q S : Type} {planner : Planner Q S P} {left right : LogicalPlan S} {joinType : JoinType}
  {on : Option (Expr S)} {leftPlan rightPlan : PhysicalPlan P} {predicate : Option (PhysExpr P)}
  {output leftSchema rightSchema : Schema} {scope : Scope}

/-- The output of a join node has the columns of both inputs. -/
theorem length_output (emitted : planner.lowerPlan (.join left right joinType on) =
      .ok ⟨.nestedLoopJoin leftPlan rightPlan joinType predicate output, scope⟩)
    (leftOutput : leftPlan.outputSchema = some leftSchema) (rightOutput : rightPlan.outputSchema = some rightSchema) :
    output.columns.length = leftSchema.columns.length + rightSchema.columns.length := by
  obtain ⟨leftLowered, leftLower, rightLowered, rightLower, bound, _, built⟩ := Planner.lowerPlan_join.mp emitted
  cases built
  rw [Planner.length_outputSchema leftLower leftOutput, Planner.length_outputSchema rightLower rightOutput,
    Scope.length_schema, Planner.len_joinScope]

/-- A join node the planner emits computes the relational join of its inputs, every
row as wide as its output schema, exactly when each side that has to be padded has
shown its width and the rows fit the session's limit. -/
theorem nested_loop_is_relational_iff {session : Session} {answers : P → List Value} {outer inner : List Tuple}
    (emitted : planner.lowerPlan (.join left right joinType on) =
      .ok ⟨.nestedLoopJoin leftPlan rightPlan joinType predicate output, scope⟩)
    (leftOutput : leftPlan.outputSchema = some leftSchema) (rightOutput : rightPlan.outputSchema = some rightSchema)
    (outerConforms : ∀ tuple ∈ outer, Conforms leftSchema tuple.row)
    (innerConforms : ∀ tuple ∈ inner, Conforms rightSchema tuple.row)
    (quiet : session.Quiet (resolveOption answers predicate) inner outer) :
    (∃ rows, session.nestedLoopJoin outer inner joinType (resolveOption answers predicate) = .ok rows ∧
      rows.map Tuple.row = relationalJoin joinType leftSchema.columns.length rightSchema.columns.length
        (session.accepts (resolveOption answers predicate)) (outer.map Tuple.row) (inner.map Tuple.row) ∧
      ∀ tuple ∈ rows, tuple.row.values.length = output.columns.length) ↔
    PaddingSeen joinType leftSchema.columns.length rightSchema.columns.length outer inner ∧
      session.Room (relationalJoin joinType leftSchema.columns.length rightSchema.columns.length
        (session.accepts (resolveOption answers predicate)) (outer.map Tuple.row) (inner.map Tuple.row)).length := by
  have outerWidths : ∀ tuple ∈ outer, tuple.row.values.length = leftSchema.columns.length :=
    fun tuple member => (outerConforms tuple member).length
  have innerWidths : ∀ tuple ∈ inner, tuple.row.values.length = rightSchema.columns.length :=
    fun tuple member => (innerConforms tuple member).length
  rw [← relationalJoin_firstWidth_iff (session.accepts (resolveOption answers predicate)) outerWidths innerWidths]
  -- Within the limit the loop is the join with the widths it has seen.
  have run : session.Room (relationalJoin joinType leftSchema.columns.length rightSchema.columns.length
        (session.accepts (resolveOption answers predicate)) (outer.map Tuple.row) (inner.map Tuple.row)).length →
      session.nestedLoopJoin outer inner joinType (resolveOption answers predicate) =
        .ok ((relationalJoin joinType (firstWidth outer) (firstWidth inner)
          (session.accepts (resolveOption answers predicate)) (outer.map Tuple.row) (inner.map Tuple.row)).map
            (Tuple.mk none)) := by
    intro room
    rw [← joinedRows_eq]
    apply nestedLoopJoin_eq quiet
    rw [joinedRows_eq, relationalJoin, length_joinRows]
    exact room
  constructor
  · rintro ⟨rows, ran, same, _⟩
    have room := room_of_nestedLoopJoin ran
    rw [← List.length_map Tuple.row, same] at room
    refine ⟨?_, room⟩
    rw [run room] at ran
    cases ran
    simpa [List.map_map, Function.comp_def] using same
  · rintro ⟨same, room⟩
    have ran := run room
    rw [same] at ran
    refine ⟨_, ran, by simp [List.map_map, Function.comp_def], ?_⟩
    intro tuple member
    obtain ⟨row, joined, rfl⟩ := List.mem_map.mp member
    rw [length_output emitted leftOutput rightOutput]
    exact length_relationalJoin_row (by simpa using outerWidths) (by simpa using innerWidths) joined

end

/-- A table of one nullable `INT` column. -/
def singleColumn (id : TableId) (name column : String) : TableSource where
  id := id
  name := name
  aliasName := none
  schema := ⟨[⟨column, .int4, true, none⟩]⟩

/-- A session over empty tables without a row limit. -/
def Session.blank : Session where
  runtime := .plain
  maxRows := 0
  scan _ := []
  lookup := none

/-- The scan of such a table. -/
def singleScan (id : TableId) (name column : String) : PhysicalPlan Empty :=
  .seqScan id name (singleColumn id name column).schema none

/-- The planner's node for a join of two such tables. -/
def singleJoin (joinType : JoinType) (on : Option (Expr Empty)) : Except FerriteError (Lowered Empty) :=
  Planner.bare.lowerPlan
    (.join (.scan (singleColumn 1 "a" "x") none) (.scan (singleColumn 2 "b" "y") none) joinType on)

/-- A full join of `1, 2` and `2, 3` on equality: one pair, and a row of each side without one. -/
theorem nested_loop_is_relational_of_full_join :
    let outer : List Tuple := [⟨some 0, ⟨[.int4 1]⟩⟩, ⟨some 1, ⟨[.int4 2]⟩⟩]
    let inner : List Tuple := [⟨some 0, ⟨[.int4 2]⟩⟩, ⟨some 1, ⟨[.int4 3]⟩⟩]
    let equal := resolveOption (fun _ : Empty => []) (some (.binary (.column 0) .eq (.column 1)))
    ∃ rows, blank.nestedLoopJoin outer inner .full equal = .ok rows ∧
      rows.map Tuple.row = relationalJoin .full 1 1 (blank.accepts equal) (outer.map Tuple.row) (inner.map Tuple.row) ∧
      ∀ tuple ∈ rows, tuple.row.values.length = 2 := by
  intro outer inner equal
  have emitted : singleJoin .full (some (Expr.eq (.column ⟨none, "x"⟩) (.column ⟨none, "y"⟩))) =
      .ok ⟨.nestedLoopJoin (singleScan 1 "a" "x") (singleScan 2 "b" "y") .full
        (some (.binary (.column 0) .eq (.column 1))) ⟨[⟨"x", .int4, true, none⟩, ⟨"y", .int4, true, none⟩]⟩, _⟩ := rfl
  have conforms : ∀ id name column value, Conforms (singleColumn id name column).schema ⟨[.int4 value]⟩ :=
    fun _ _ _ _ => .cons (.inr rfl) .nil
  refine (nested_loop_is_relational_iff emitted rfl rfl ?_ ?_ ?_).mpr ?_
  · simpa [outer] using ⟨conforms 1 "a" "x" 1, conforms 1 "a" "x" 2⟩
  · simpa [inner] using ⟨conforms 2 "b" "y" 2, conforms 2 "b" "y" 3⟩
  · simp only [Quiet, outer, inner, List.forall_mem_cons]
    exact ⟨⟨⟨_, rfl⟩, ⟨_, rfl⟩, by simp⟩, ⟨⟨_, rfl⟩, ⟨_, rfl⟩, by simp⟩, by simp⟩
  · exact ⟨⟨by simp [inner], by simp [outer]⟩, .inl rfl⟩

/-- A left join with an empty right side returns a row of one value where the node's
schema has two columns. -/
theorem left_join_with_nothing_is_not_padded : ∃ scope output, singleJoin .left none =
        .ok ⟨.nestedLoopJoin (singleScan 1 "a" "x") (singleScan 2 "b" "y") .left none output, scope⟩ ∧
      output.columns.length = 2 ∧
      blank.nestedLoopJoin [⟨some 0, ⟨[.int4 1]⟩⟩] [] .left (none : Option (PhysExpr Empty)) =
        .ok [⟨none, ⟨[.int4 1]⟩⟩] :=
  ⟨_, _, rfl, rfl, rfl⟩

end Ferrite.Stream
