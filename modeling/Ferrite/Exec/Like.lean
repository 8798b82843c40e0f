import Ferrite.Exec.Eval
import Ferrite.Logical.Wildcard

/-!
# What `LIKE` matches

`like_matches` (`ferrite-exec/src/eval.rs`) against the language of a pattern. The pattern is
read character by character by the loop, with escapes of two; taken apart into pieces
beforehand it is a pattern of the greedy wildcard loop, and the two loops go through the
same rounds.
-/

namespace Ferrite.Eval

open Logical Logical.Wildcard LikeState

/-- The texts of a pattern: `%` is any sequence of characters, `_` any one, a backslash the
character after it, and every other character itself. A backslash at the end is nothing. -/
inductive Like : List Char → List Char → Prop where
  | nil : Like [] []
  | any {pattern text : List Char} (skipped : List Char) (rest : Like pattern text) :
      Like ('%' :: pattern) (skipped ++ text)
  | one {pattern text : List Char} (char : Char) (rest : Like pattern text) : Like ('_' :: pattern) (char :: text)
  | escaped {pattern text : List Char} (char : Char) (rest : Like pattern text) :
      Like ('\\' :: char :: pattern) (char :: text)
  | literal {pattern text : List Char} (char : Char) (plain : char ≠ '%' ∧ char ≠ '_' ∧ char ≠ '\\')
      (rest : Like pattern text) : Like (char :: pattern) (char :: text)

def likeRound : LikeState → Bool ⊕ LikeState
  | ⟨[], pattern, _⟩ => .inl (pattern.all (· = '%'))
  | ⟨char :: text, pattern, resume⟩ =>
    match likeAdvance char text resume pattern, resume with
    | some state, _ => .inr state
    | none, some (_ :: later, afterWildcard) => .inr ⟨later, afterWildcard, some (later, afterWildcard)⟩
    | none, _ => .inl false

private theorem likeLoop_succ (rounds : Nat) (state : LikeState) : likeLoop (rounds + 1) state =
      match likeRound state with
      | .inl answer => answer
      | .inr next => likeLoop rounds next := by
  obtain ⟨text, pattern, resume⟩ := state
  cases text with
  | nil => rfl
  | cons char text =>
    rw [likeLoop.eq_def, likeRound.eq_def]
    dsimp only
    cases likeAdvance char text resume pattern with
    | some next => rfl
    | none =>
      cases resume with
      | none => rfl
      | some last =>
        obtain ⟨whole, after⟩ := last
        cases whole <;> rfl

/-- Rounds beyond the last one change nothing. -/
theorem likeLoop_of_endsWithin {rounds : Nat} {state : LikeState} {answer : Bool}
    (ends : Loop.EndsWithin likeRound rounds state answer) : likeLoop rounds state = answer := by
  induction ends with
  | answers now => rw [likeLoop_succ, now]
  | goesOn now _ ih => rw [likeLoop_succ, now]; exact ih

/-- A pattern taken apart. A backslash at the end is a test nothing passes. -/
def pieces : List Char → List (Piece Char)
  | '%' :: rest => .run :: pieces rest
  | '_' :: rest => .one (fun _ => true) :: pieces rest
  | '\\' :: escaped :: rest => .one (fun char => decide (escaped = char)) :: pieces rest
  | '\\' :: [] => [.one fun _ => false]
  | other :: rest => .one (fun char => decide (other = char)) :: pieces rest
  | [] => []

/-- A character before which no other case of `pieces` applies. -/
theorem plain_of_cases {other : Char} {rest : List Char} (notAny : other = '%' → False) (notOne : other = '_' → False)
    (notEscape : ∀ escaped later, other = '\\' → rest = escaped :: later → False)
    (notLone : other = '\\' → rest = [] → False) : other ≠ '%' ∧ other ≠ '_' ∧ other ≠ '\\' := by
  refine ⟨notAny, notOne, fun same => ?_⟩
  cases rest with
  | nil => exact notLone same rfl
  | cons escaped later => exact notEscape escaped later same rfl

private theorem like_iff_matches {pattern text : List Char} : Like pattern text ↔ Matches (pieces pattern) text := by
  fun_induction pieces pattern generalizing text with
  | case1 rest ih =>
    constructor
    · intro like
      cases like with
      | any skipped tail => exact ⟨skipped, _, rfl, ih.mp tail⟩
      | literal _ plain _ => exact absurd rfl plain.1
    · rintro ⟨skipped, later, rfl, tail⟩
      exact .any skipped (ih.mpr tail)
  | case2 rest ih =>
    constructor
    · intro like
      cases like with
      | one char tail => exact ⟨char, _, rfl, rfl, ih.mp tail⟩
      | literal _ plain _ => exact absurd rfl plain.2.1
    · rintro ⟨char, later, rfl, -, tail⟩
      exact .one char (ih.mpr tail)
  | case3 escaped rest ih =>
    constructor
    · intro like
      cases like with
      | escaped _ tail => exact ⟨escaped, _, rfl, decide_eq_true rfl, ih.mp tail⟩
      | literal _ plain _ => exact absurd rfl plain.2.2
    · rintro ⟨char, later, rfl, same, tail⟩
      obtain rfl := of_decide_eq_true same
      exact .escaped escaped (ih.mpr tail)
  | case4 =>
    constructor
    · intro like
      cases like with
      | literal _ plain _ => exact absurd rfl plain.2.2
    · rintro ⟨char, later, -, never, -⟩
      cases never
  | case5 other rest notAny notOne notEscape notLone ih =>
    have plain := plain_of_cases notAny notOne notEscape notLone
    constructor
    · intro like
      cases like with
      | literal _ _ tail => exact ⟨other, _, rfl, decide_eq_true rfl, ih.mp tail⟩
      | any _ _ => exact absurd rfl plain.1
      | one _ _ => exact absurd rfl plain.2.1
      | escaped _ _ => exact absurd rfl plain.2.2
    · rintro ⟨char, later, rfl, same, tail⟩
      obtain rfl := of_decide_eq_true same
      exact .literal other plain (ih.mpr tail)
  | case6 =>
    constructor
    · intro like
      cases like
      rfl
    · rintro rfl
      exact .nil

private theorem length_pieces_le (pattern : List Char) : (pieces pattern).length ≤ pattern.length := by
  fun_induction pieces pattern with
  | case1 | case2 | case3 | case4 | case5 | case6 => simp only [List.length_cons, List.length_nil]; omega

private theorem all_isRun_pieces (pattern : List Char) : (pieces pattern).all Piece.isRun = pattern.all (· = '%') := by
  fun_induction pieces pattern with
  | case1 rest ih => simp [Piece.isRun, ih]
  | case2 rest ih => simp [Piece.isRun]
  | case3 escaped rest ih => simp [Piece.isRun]
  | case4 => simp [Piece.isRun]
  | case5 other rest notAny notOne notEscape notLone ih =>
    have different : decide (other = '%') = false := decide_eq_false notAny
    rw [List.all_cons, List.all_cons, different]
    rfl
  | case6 => rfl

/-- A state of the loop with its patterns taken apart. -/
def LikeState.apart (state : LikeState) : State Char :=
  ⟨state.text, pieces state.pattern, state.resume.map (Prod.map id pieces)⟩

private theorem advance_pieces (char : Char) (text : List Char) (resume : Option (List Char × List Char))
    (pattern : List Char) : advance char text (resume.map (Prod.map id pieces)) (pieces pattern) =
      (likeAdvance char text resume pattern).map apart := by
  fun_cases pieces pattern with
  | case1 rest => rfl
  | case2 rest => simp [advance, likeAdvance, apart]
  | case3 escaped rest =>
    rw [advance, likeAdvance]
    by_cases same : escaped = char <;> simp [same, apart]
  | case4 => rfl
  | case5 other rest notAny notOne notEscape notLone =>
    rw [advance, likeAdvance.eq_5 char text resume other rest notAny notOne notEscape notLone]
    by_cases same : other = char <;> simp [same, apart]
  | case6 => rfl

private theorem round_apart (state : LikeState) : Wildcard.round state.apart = (likeRound state).map id apart := by
  obtain ⟨text, pattern, resume⟩ := state
  cases text with
  | nil => simp [Wildcard.round, likeRound, apart, all_isRun_pieces]
  | cons char text =>
    have advanced := advance_pieces char text resume pattern
    rw [Wildcard.round, likeRound.eq_def]
    simp only [apart, advanced]
    cases likeAdvance char text resume pattern with
    | some next => rfl
    | none =>
      cases resume with
      | none => rfl
      | some last =>
        obtain ⟨whole, after⟩ := last
        cases whole with
        | nil => rfl
        | cons first later => rfl

/-- `like_matches` ends, and a text matches exactly if it is one of the pattern's. -/
theorem likeMatches_iff_like (text pattern : String) :
    Loop.EndsWithin likeRound ((text.length + 1) * (text.length + pattern.length + 2))
        ⟨text.toList, pattern.toList, none⟩ (likeMatches text pattern) ∧
      (likeMatches text pattern = true ↔ Like pattern.toList text.toList) := by
  have fewer : (pieces pattern.toList).length ≤ pattern.length := by
    rw [← String.length_toList]
    exact length_pieces_le pattern.toList
  have enough : (text.toList.length + 1) * (text.toList.length + (pieces pattern.toList).length + 1) ≤
      (text.length + 1) * (text.length + pattern.length + 2) := by
    rw [String.length_toList]
    exact Nat.mul_le_mul_left _ (by omega)
  obtain ⟨answer, ends, correct⟩ := greedy_ends text.toList (pieces pattern.toList) enough
  have likeEnds : Loop.EndsWithin likeRound _ ⟨text.toList, pattern.toList, none⟩ answer := ends.of_map round_apart
  have same : likeMatches text pattern = answer := likeLoop_of_endsWithin likeEnds
  rw [same, like_iff_matches]
  exact ⟨likeEnds, correct⟩

end Ferrite.Eval
