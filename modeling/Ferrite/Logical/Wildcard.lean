import Ferrite.Logical.Loop
import Mathlib.Data.List.Forall2

/-!
# Greedy wildcard matching

A pattern is a list of pieces: a run, which any sequence of symbols matches, or a test on
one symbol. The greedy loop compares from the left and remembers only where its last run
began: on a mismatch the run takes one symbol more. Earlier runs are never revisited. They
need not be: whatever follows the last run can be matched no later than by the first match
of what stands before it.
-/

namespace Ferrite.Logical.Wildcard

variable {α : Type*}

/-- A piece of a pattern. -/
inductive Piece (α : Type*) where
  | run
  | one (accepts : α → Bool)

def Piece.isRun : Piece α → Bool
  | .run => true
  | .one _ => false

/-- The texts of a pattern. -/
def Matches : List (Piece α) → List α → Prop
  | [], text => text = []
  | .run :: rest, text => ∃ skipped later, text = skipped ++ later ∧ Matches rest later
  | .one accepts :: rest, text => ∃ symbol later, text = symbol :: later ∧ accepts symbol = true ∧ Matches rest later

/-- Symbols that pass a list of tests one by one. -/
abbrev Pass (tests : List (α → Bool)) (symbols : List α) : Prop :=
  List.Forall₂ (fun accepts symbol => accepts symbol = true) tests symbols

variable {pattern : List (Piece α)} {symbol : α} {text : List α} {tests : List (α → Bool)}
  {resume : Option (List α × List (Piece α))} {width : Nat}

private theorem matches_nil_text : Matches pattern [] ↔ pattern.all Piece.isRun = true := by
  induction pattern with
  | nil => simp [Matches]
  | cons piece rest ih =>
    cases piece with
    | run => simp [Matches, Piece.isRun, ih]
    | one accepts => simp [Matches, Piece.isRun]

private theorem matches_run_cons : Matches (.run :: pattern) (symbol :: text) ↔
      Matches pattern (symbol :: text) ∨ Matches (.run :: pattern) text := by
  constructor
  · rintro ⟨skipped, later, same, rest⟩
    cases skipped with
    | nil => exact .inl (same ▸ rest)
    | cons first skipped =>
      obtain ⟨-, same⟩ := List.cons.inj same
      exact .inr ⟨skipped, later, same, rest⟩
  · rintro (rest | ⟨skipped, later, same, rest⟩)
    · exact ⟨[], _, rfl, rest⟩
    · exact ⟨symbol :: skipped, later, by rw [same, List.cons_append], rest⟩

private theorem matches_tests : Matches (tests.map .one ++ pattern) text ↔
      ∃ used later, text = used ++ later ∧ Pass tests used ∧ Matches pattern later := by
  induction tests generalizing text with
  | nil =>
    constructor
    · exact fun rest => ⟨[], text, rfl, .nil, rest⟩
    · rintro ⟨used, later, rfl, pass, rest⟩
      cases pass
      exact rest
  | cons accepts tests ih =>
    constructor
    · rintro ⟨symbol, later, rfl, accepted, rest⟩
      obtain ⟨used, later, rfl, pass, rest⟩ := ih.mp rest
      exact ⟨symbol :: used, later, rfl, .cons accepted pass, rest⟩
    · rintro ⟨used, later, rfl, pass, rest⟩
      cases pass with
      | @cons _ symbol _ used accepted pass => exact ⟨symbol, used ++ later, rfl, accepted, ih.mpr ⟨used, later, rfl, pass, rest⟩⟩

/-- Tests leave no choice. -/
theorem matches_passed {used : List α} (pass : Pass tests used) :
    Matches (tests.map .one ++ pattern) (used ++ text) ↔ Matches pattern text := by
  rw [matches_tests]
  constructor
  · rintro ⟨other, later, same, passOther, rest⟩
    have lengths : used.length = other.length := pass.length_eq.symm.trans passOther.length_eq
    exact (List.append_inj same lengths).2 ▸ rest
  · exact fun rest => ⟨used, text, rfl, pass, rest⟩

/-- What follows a second run need not be looked for before the first match of what stands
between the two. -/
theorem matches_two_runs {used : List α} (pass : Pass tests used) :
    Matches (.run :: (tests.map .one ++ .run :: pattern)) (used ++ text) ↔ Matches (.run :: pattern) text := by
  constructor
  · rintro ⟨skipped, later, same, matched⟩
    obtain ⟨other, later, rfl, passOther, skippedAgain, last, rfl, rest⟩ := matches_tests.mp matched
    have lengths : used.length = other.length := pass.length_eq.symm.trans passOther.length_eq
    -- The end that matches is a suffix of the whole, not longer than `text`.
    have shorter : last.length ≤ text.length := by
      have total := congrArg List.length same
      simp only [List.length_append] at total
      omega
    have suffix : last <:+ used ++ text := ⟨skipped ++ (other ++ skippedAgain), by rw [same]; simp⟩
    obtain ⟨before, rfl⟩ := List.suffix_of_suffix_length_le suffix (List.suffix_append used text) shorter
    exact ⟨before, last, rfl, rest⟩
  · intro rest
    exact ⟨[], used ++ text, rfl, (matches_passed pass).mpr rest⟩

/-- After as many symbols as there are tests, nothing shorter matches. -/
theorem not_matches_of_shorter (shorter : text.length < tests.length) :
    ¬Matches (.run :: (tests.map .one ++ pattern)) text := by
  rintro ⟨skipped, later, rfl, rest⟩
  obtain ⟨used, later, rfl, pass, -⟩ := matches_tests.mp rest
  have := pass.length_eq
  simp only [List.length_append] at shorter
  omega

/-! ## The loop -/

/-- Where the loop stands: the rest of the text and of the pattern, and both as they were
after the last run. -/
structure State (α : Type*) where
  text : List α
  pattern : List (Piece α)
  resume : Option (List α × List (Piece α))

/-- One piece against one symbol, `none` for a mismatch. -/
def advance (symbol : α) (text : List α) (resume : Option (List α × List (Piece α))) :
    List (Piece α) → Option (State α)
  | .run :: pattern => some ⟨symbol :: text, pattern, some (symbol :: text, pattern)⟩
  | .one accepts :: pattern => if accepts symbol then some ⟨text, pattern, resume⟩ else none
  | [] => none

/-- Let the last run take one symbol more. -/
def retreat : Option (List α × List (Piece α)) → Bool ⊕ State α
  | some (_ :: later, pattern) => .inr ⟨later, pattern, some (later, pattern)⟩
  | _ => .inl false

def round (state : State α) : Bool ⊕ State α :=
  match state.text with
  | [] => .inl (state.pattern.all Piece.isRun)
  | symbol :: text =>
    match advance symbol text state.resume state.pattern with
    | some next => .inr next
    | none => retreat state.resume

/-- What the loop knows of the question it is to answer. -/
def Tracks (goal : Prop) (state : State α) : Prop :=
  match state.resume with
  | none => goal ↔ Matches state.pattern state.text
  | some (text, pattern) => (goal ↔ Matches (.run :: pattern) text) ∧
      ∃ tests used, pattern = tests.map .one ++ state.pattern ∧ text = used ++ state.text ∧ Pass tests used

variable {goal : Prop} {state next : State α}

/-- At a mismatch the pattern does not match here. -/
theorem not_matches_of_mismatch (mismatch : advance symbol text resume pattern = none) :
    ¬Matches pattern (symbol :: text) := by
  cases pattern with
  | nil => exact nofun
  | cons piece pattern =>
    cases piece with
    | run => cases mismatch
    | one accepts =>
      rintro ⟨found, later, same, accepted, -⟩
      obtain ⟨rfl, -⟩ := List.cons.inj same
      simp [advance, accepted] at mismatch

private theorem tracks_advance (tracks : Tracks goal ⟨symbol :: text, pattern, resume⟩)
    (advanced : advance symbol text resume pattern = some next) : Tracks goal next := by
  cases pattern with
  | nil => cases advanced
  | cons piece pattern =>
    cases piece with
    | run =>
      obtain rfl := Option.some.inj advanced
      refine ⟨?_, [], [], rfl, rfl, .nil⟩
      cases resume with
      | none => exact tracks
      | some last =>
        obtain ⟨known, tests, used, samePattern, sameText, pass⟩ := tracks
        dsimp only at samePattern sameText
        rw [known, samePattern, sameText, matches_two_runs pass]
    | one accepts =>
      rw [advance] at advanced
      split at advanced
      · rename_i accepted
        obtain rfl := Option.some.inj advanced
        cases resume with
        | none =>
          have known : goal ↔ Matches (.one accepts :: pattern) (symbol :: text) := tracks
          have here : Matches (.one accepts :: pattern) (symbol :: text) ↔ Matches pattern text :=
            @matches_passed _ pattern text [accepts] [symbol] (.cons accepted .nil)
          exact known.trans here
        | some last =>
          obtain ⟨known, tests, used, samePattern, sameText, pass⟩ := tracks
          refine ⟨known, tests ++ [accepts], used ++ [symbol], ?_, ?_, ?_⟩
          · rw [samePattern]
            simp
          · rw [sameText]
            simp
          · exact List.rel_append pass (.cons accepted .nil)
      · cases advanced

private theorem tracks_retreat (tracks : Tracks goal ⟨symbol :: text, pattern, resume⟩)
    (mismatch : advance symbol text resume pattern = none) (retreats : retreat resume = .inr next) :
    Tracks goal next := by
  have not := not_matches_of_mismatch mismatch
  cases resume with
  | none => cases retreats
  | some last =>
    obtain ⟨known, tests, used, samePattern, sameText, pass⟩ := tracks
    obtain ⟨whole, after⟩ := last
    cases whole with
    | nil => cases retreats
    | cons first later =>
      obtain rfl := Sum.inr.inj retreats
      refine ⟨?_, [], [], rfl, rfl, .nil⟩
      have notHere : ¬Matches after (first :: later) := by
        dsimp only at samePattern sameText
        rw [samePattern, sameText, matches_passed pass]
        exact not
      rw [known, matches_run_cons]
      exact or_iff_right notHere

private theorem tracks_round (tracks : Tracks goal state) (goesOn : round state = .inr next) : Tracks goal next := by
  obtain ⟨text, pattern, resume⟩ := state
  cases text with
  | nil => cases goesOn
  | cons symbol text =>
    rw [round] at goesOn
    dsimp only at goesOn
    split at goesOn
    · rename_i advanced
      obtain rfl := Sum.inr.inj goesOn
      exact tracks_advance tracks advanced
    · rename_i mismatch
      exact tracks_retreat tracks mismatch goesOn

private theorem answer_round {answer : Bool} (tracks : Tracks goal state) (answers : round state = .inl answer) :
    answer = true ↔ goal := by
  obtain ⟨text, pattern, resume⟩ := state
  cases text with
  | nil =>
    obtain rfl := Sum.inl.inj answers
    rw [← matches_nil_text]
    cases resume with
    | none => exact Iff.symm tracks
    | some last =>
      obtain ⟨known, tests, used, samePattern, sameText, pass⟩ := tracks
      obtain ⟨whole, after⟩ := last
      dsimp only at samePattern sameText known ⊢
      rw [List.append_nil] at sameText
      subst samePattern sameText
      rw [known, ← matches_passed pass, List.append_nil]
      constructor
      · exact fun here => ⟨[], whole, rfl, here⟩
      · -- Shorter ends are too short for the tests.
        intro found
        cases whole with
        | nil =>
          obtain ⟨skipped, later, same, rest⟩ := found
          obtain ⟨rfl, rfl⟩ := List.append_eq_nil_iff.mp same.symm
          exact rest
        | cons first later =>
          refine (matches_run_cons.mp found).resolve_right (not_matches_of_shorter ?_)
          rw [pass.length_eq]
          exact Nat.lt_succ_self _
  | cons symbol text =>
    rw [round] at answers
    dsimp only at answers
    split at answers
    · cases answers
    · rename_i mismatch
      cases resume with
      | none =>
        obtain rfl := Sum.inl.inj answers
        have known : goal ↔ Matches pattern (symbol :: text) := tracks
        rw [known]
        exact iff_of_false Bool.false_ne_true (not_matches_of_mismatch mismatch)
      | some last =>
        obtain ⟨known, tests, used, samePattern, sameText, pass⟩ := tracks
        obtain ⟨whole, after⟩ := last
        cases whole with
        | nil => simp at sameText
        | cons first later => cases answers

/-! ## Its end -/

/-- The symbols the last run may still take. -/
def reserve (state : State α) : Nat :=
  match state.resume with
  | none => state.text.length
  | some (text, _) => text.length

/-- The rounds left, if no text and pattern to resume with are longer than `width`. -/
def measure (width : Nat) (state : State α) : Nat :=
  reserve state * width + (state.text.length + state.pattern.length)

/-- The text and pattern to resume with are not longer than `width`, and the text not shorter
than the one at hand. -/
def Bounded (width : Nat) (state : State α) : Prop := state.text.length + state.pattern.length < width ∧
    ∀ last ∈ state.resume, last.1.length + last.2.length < width ∧ state.text.length ≤ last.1.length

private theorem Bounded.text_le_reserve (bounded : Bounded width state) : state.text.length ≤ reserve state := by
  obtain ⟨text, pattern, resume⟩ := state
  cases resume with
  | none => exact Nat.le_refl _
  | some last => exact (bounded.2 last rfl).2

/-- A round that takes from the text or the pattern. -/
theorem measure_lt_of_reserve_le (reserves : reserve next ≤ reserve state)
    (shorter : next.text.length + next.pattern.length < state.text.length + state.pattern.length) :
    measure width next < measure width state :=
  Nat.add_lt_add_of_le_of_lt (Nat.mul_le_mul_right width reserves) shorter

private theorem bounded_advance (bounded : Bounded width ⟨symbol :: text, pattern, resume⟩)
    (advanced : advance symbol text resume pattern = some next) :
    Bounded width next ∧ measure width next < measure width ⟨symbol :: text, pattern, resume⟩ := by
  have reserves := bounded.text_le_reserve
  obtain ⟨here, last⟩ := bounded
  cases pattern with
  | nil => cases advanced
  | cons piece pattern =>
    cases piece with
    | run =>
      obtain rfl := Option.some.inj advanced
      simp only [List.length_cons] at here
      refine ⟨⟨?_, ?_⟩, measure_lt_of_reserve_le reserves ?_⟩
      · simp only [List.length_cons]
        omega
      · intro other same
        obtain rfl := Option.some.inj same
        simp only [List.length_cons]
        omega
      · simp only [List.length_cons]
        omega
    | one accepts =>
      rw [advance] at advanced
      split at advanced
      · obtain rfl := Option.some.inj advanced
        simp only [List.length_cons] at here
        refine ⟨⟨by dsimp only; omega, fun other same => ?_⟩, measure_lt_of_reserve_le ?_ ?_⟩
        · obtain ⟨width, longer⟩ := last other same
          exact ⟨width, Nat.le_of_succ_le longer⟩
        · cases resume with
          | none => exact Nat.le_succ _
          | some last => exact Nat.le_refl _
        · simp only [List.length_cons]
          omega
      · cases advanced

private theorem bounded_retreat (bounded : Bounded width ⟨text, pattern, resume⟩)
    (retreats : retreat resume = .inr next) :
    Bounded width next ∧ measure width next < measure width ⟨text, pattern, resume⟩ := by
  cases resume with
  | none => cases retreats
  | some last =>
    obtain ⟨whole, after⟩ := last
    obtain ⟨fits, -⟩ := bounded.2 _ rfl
    cases whole with
    | nil => cases retreats
    | cons first later =>
      obtain rfl := Sum.inr.inj retreats
      simp only [List.length_cons] at fits
      have narrower : later.length + after.length < width := by omega
      refine ⟨⟨narrower, fun other same => ?_⟩, ?_⟩
      · obtain rfl := Option.some.inj same
        exact ⟨narrower, Nat.le_refl _⟩
      · simp only [measure, reserve, List.length_cons, Nat.succ_mul]
        omega

private theorem bounded_round (bounded : Bounded width state) (goesOn : round state = .inr next) :
    Bounded width next ∧ measure width next < measure width state := by
  obtain ⟨text, pattern, resume⟩ := state
  cases text with
  | nil => cases goesOn
  | cons symbol text =>
    rw [round] at goesOn
    dsimp only at goesOn
    split at goesOn
    · rename_i advanced
      obtain rfl := Sum.inr.inj goesOn
      exact bounded_advance bounded advanced
    · exact bounded_retreat bounded goesOn

/-- The greedy loop ends, and answers whether the text is one of the pattern. -/
theorem greedy_ends (text : List α) (pattern : List (Piece α)) {count : Nat}
    (enough : (text.length + 1) * (text.length + pattern.length + 1) ≤ count) :
    ∃ answer, Loop.EndsWithin round count ⟨text, pattern, none⟩ answer ∧ (answer = true ↔ Matches pattern text) := by
  let width := text.length + pattern.length + 1
  have goesOn : ∀ state next : State α, Bounded width state ∧ Tracks (Matches pattern text) state → round state = .inr next →
      (Bounded width next ∧ Tracks (Matches pattern text) next) ∧ measure width next < measure width state := by
    rintro state next ⟨bounded, tracks⟩ goesOn
    obtain ⟨still, smaller⟩ := bounded_round bounded goesOn
    exact ⟨⟨still, tracks_round tracks goesOn⟩, smaller⟩
  have answers : ∀ (state : State α) answer, Bounded width state ∧ Tracks (Matches pattern text) state →
      round state = .inl answer → (answer = true ↔ Matches pattern text) :=
    fun state answer inv answers => answer_round inv.2 answers
  have initial : Bounded width ⟨text, pattern, none⟩ ∧ Tracks (Matches pattern text) ⟨text, pattern, none⟩ :=
    ⟨⟨Nat.lt_succ_self _, nofun⟩, Iff.rfl⟩
  have within : measure width ⟨text, pattern, none⟩ < count := by
    simp only [measure, reserve, width]
    rw [Nat.succ_mul] at enough
    omega
  exact Loop.endsWithin_of_measure (measure width) goesOn answers initial within

end Ferrite.Logical.Wildcard
