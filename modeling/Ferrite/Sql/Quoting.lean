import Ferrite.Sql.Lexer

/-!
# Quoted texts

Between two tokens the lexer remembers nothing: what it reads from there depends only on
the text that is left. A text in quotes, its marks doubled, is therefore read as one token
wherever a token can begin, whatever stands before and after it.
-/

namespace Ferrite.Lexer

open Logical Reader

variable {alphabet : Alphabet} {later : List Char}

/-- No token reaches over the end of `rest`: nothing comes later, or white space is last. -/
def Closed (alphabet : Alphabet) (later rest : List Char) : Prop :=
  later = [] ∨ ∃ before space, alphabet.isWhitespace space = true ∧ rest = before ++ [space]

variable {after : List Char} {place start : Lexer} {tokens : List SpannedToken}

private theorem Closed.of_suffix {before : List Char} (closed : Closed alphabet later after)
    (suffix : after <:+ before) :
    Closed alphabet later before := by
  rcases closed with nothing | ⟨start, space, white, rfl⟩
  · exact .inl nothing
  · obtain ⟨front, rfl⟩ := suffix
    exact .inr ⟨front ++ start, space, white, (List.append_assoc _ _ _).symm⟩

private theorem ne_of_isWhitespace {space char : Char} (white : alphabet.isWhitespace space = true)
    (ascii : isAscii char = true)
    (notSpace : isAsciiSpace char = false) : space ≠ char := by
  rintro rfl
  rw [alphabet.isWhitespace_ascii space ascii, notSpace] at white
  cases white

/-! ## Text that comes later -/

section

variable {α β : Type} {rest : List Char}

/-- What one reader takes from a text, the other takes with more text behind it, wherever
the two begin. -/
def Carries (alphabet : Alphabet) (later : List Char) (first second : Lex α) (rest : List Char) : Prop :=
  ∀ offset other value after, first.run ⟨offset, rest⟩ = .ok (value, after) → Closed alphabet later after.rest →
    ∃ otherAfter, second.run ⟨other, rest ++ later⟩ = .ok (value, ⟨otherAfter, after.rest ++ later⟩)

private theorem carries_pure (value : α) : Carries alphabet later (pure value) (pure value) rest := by
  intro offset other result after ran _
  cases ran
  exact ⟨other, rfl⟩

private theorem carries_err (offset : Nat) (message : String) (second : Lex α) :
    Carries alphabet later (err offset message) second rest := by
  intro _ _ _ _ ran _
  cases ran

private theorem carries_bind {first second : Lex α} {next other : α → Lex β}
    (carries : Carries alphabet later first second rest)
    (rests : ∀ value rest, Carries alphabet later (next value) (other value) rest) :
    Carries alphabet later (first >>= next) (second >>= other) rest := by
  intro offset start value after ran closed
  obtain ⟨result, middle, ranFirst, ranNext⟩ := bind_run_eq_ok.mp ran
  obtain ⟨between, ranSecond⟩ := carries _ start _ _ ranFirst (closed.of_suffix ((next result).le_of_run ranNext))
  rw [run_bind_ok ranSecond]
  exact rests result middle.rest _ _ _ _ ranNext closed

private theorem carries_look (view : List Char → α) {next other : α → Lex β}
    (rests : Closed alphabet later rest → Carries alphabet later (next (view rest)) (other (view (rest ++ later))) rest) :
    Carries alphabet later (.look (fun lexer => view lexer.rest) >>= next) (.look (fun lexer => view lexer.rest) >>= other)
      rest := by
  intro offset start value after ran closed
  have ranNext : (next (view rest)).run ⟨offset, rest⟩ = .ok (value, after) := ran
  exact rests (closed.of_suffix ((next (view rest)).le_of_run ranNext)) _ _ _ _ ranNext closed

private theorem carries_here {next other : Nat → Lex β} (rests : ∀ start begin, Carries alphabet later (next start) (other begin) rest) :
    Carries alphabet later (here >>= next) (here >>= other) rest := by
  intro offset start value after ran closed
  exact rests offset start _ _ _ _ ran closed

private theorem carries_peek {next other : Option Char → Lex β}
    (rests : ∀ current, current = rest.head? → Carries alphabet later (next current) (other current) rest) :
    Carries alphabet later (peek >>= next) (peek >>= other) rest := by
  refine carries_look List.head? fun closed => ?_
  have same : (rest ++ later).head? = rest.head? := by
    rcases closed with rfl | ⟨before, space, -, rfl⟩
    · rw [List.append_nil]
    · cases before <;> rfl
  rw [same]
  exact rests _ rfl

/-- Look at the next two characters. White space that is last has none behind it. -/
theorem carries_peekTwo {next other : Option Char → Option Char → Lex β}
    (rests : ∀ current ahead, Carries alphabet later (next current ahead) (other current ahead) rest)
    (last : ∀ space ahead, alphabet.isWhitespace space = true →
      Carries alphabet later (next (some space) none) (other (some space) ahead) rest) :
    Carries alphabet later (peek >>= fun current => peekAt 1 >>= next current)
      (peek >>= fun current => peekAt 1 >>= other current) rest := by
  refine carries_peek fun current isCurrent => carries_look (fun rest => rest[1]?) fun closed => ?_
  rcases closed with rfl | ⟨before, space, white, rfl⟩
  · rw [List.append_nil]
    exact rests _ _
  · rcases before with _ | ⟨first, _ | ⟨second, before⟩⟩
    · exact isCurrent ▸ last space _ white
    · exact rests _ _
    · exact rests _ _

private theorem carries_advance (count : Nat) : Carries alphabet later (advance count) (advance count) rest := by
  intro offset other value after ran closed
  cases ran
  have drops : (rest ++ later).drop count = rest.drop count ++ later := by
    rcases closed with rfl | ⟨before, space, -, left⟩
    · simp
    · have long : (rest.drop count).length = (before ++ [space]).length := congrArg List.length left
      rw [List.length_drop, List.length_append, List.length_singleton] at long
      exact List.drop_append_of_le_length (by omega)
  refine ⟨(skip count ⟨other, rest ++ later⟩).offset, ?_⟩
  change Except.ok ((), (⟨_, (rest ++ later).drop count⟩ : Lexer)) = _
  rw [drops]
  rfl

private theorem carries_advance_pure (count : Nat) (value : α) : Carries alphabet later
    (advance count >>= fun _ => pure value)
    (advance count >>= fun _ => pure value) rest :=
  carries_bind (carries_advance count) fun _ _ => carries_pure value

private theorem takeWhile_append {test : Char → Bool} (stops : rest.drop (rest.takeWhile test).length ≠ []) :
    (rest ++ later).takeWhile test = rest.takeWhile test := by
  induction rest with
  | nil => exact absurd (List.drop_nil ..) stops
  | cons char rest ih =>
    rw [List.cons_append, List.takeWhile_cons, List.takeWhile_cons]
    rw [List.takeWhile_cons] at stops
    cases passes : test char with
    | false => rfl
    | true => exact congrArg (char :: ·) (ih (by simpa [passes] using stops))

private theorem carries_takeWhile (test : Char → Bool) : Carries alphabet later (takeWhile test)
    (takeWhile test) rest := by
  intro offset other value after ran closed
  have same : (rest ++ later).takeWhile test = rest.takeWhile test := by
    cases ran
    rcases closed with rfl | ⟨before, space, -, left⟩
    · rw [List.append_nil]
    · refine takeWhile_append ?_
      have left : rest.drop (rest.takeWhile test).length = before ++ [space] := left
      simp [left]
  have carries : Carries alphabet later (takeWhile test) (takeWhile test) rest := by
    refine carries_look (fun rest => rest.takeWhile test) fun _ => ?_
    rw [same]
    exact carries_advance_pure _ _
  exact carries offset other value after ran closed

private theorem carries_loop {step otherStep : β → Lex (β ⊕ α)}
    (steps : ∀ state rest, Carries alphabet later (step state) (otherStep state) rest) (state : β) :
    Carries alphabet later (loop step state) (loop otherStep state) rest := by
  have rounds : ∀ few many, few ≤ many → ∀ state rest,
      Carries alphabet later (iterate step few state) (iterate otherStep many state) rest := by
    intro few
    induction few with
    | zero =>
      intro many _ state rest _ _ _ _ ran _
      cases ran
    | succ few ih =>
      intro many enough state rest
      obtain ⟨many, rfl⟩ : ∃ others, many = others + 1 := ⟨many - 1, by omega⟩
      refine carries_bind (steps state rest) fun answer rest => ?_
      rcases answer with next | result
      · exact ih many (by omega) next rest
      · exact carries_pure result
  intro offset other value after ran closed
  have enough : Input.size (⟨offset, rest⟩ : Lexer) + 1 ≤ Input.size (⟨other, rest ++ later⟩ : Lexer) + 1 := by
    simp [Input.size]
  exact rounds _ _ enough state rest offset other value after ran closed

/-! ## The parts of the lexer -/

private theorem carries_quotedStep {mark : Char} (ascii : isAscii mark = true) (notSpace : isAsciiSpace mark = false)
    (start begin : Nat) (message : String) (value : List Char) :
    Carries alphabet later (quotedStep mark (err start message) value) (quotedStep mark (err begin message) value) rest := by
  refine carries_peekTwo (fun current ahead => ?_) fun space ahead white => ?_
  · cases current with
    | none => exact carries_bind (carries_err _ _ _) fun _ _ => carries_pure _
    | some char =>
      dsimp only
      split_ifs <;> exact carries_advance_pure _ _
  · have other := ne_of_isWhitespace white ascii notSpace
    simp only [other, if_false]
    exact carries_advance_pure _ _

private theorem carries_lexString (start begin : Nat) : Carries alphabet later (lexString start)
    (lexString begin) rest := by
  refine carries_bind (carries_advance 1) fun _ rest =>
    carries_bind (carries_loop (fun value rest => ?_) []) fun _ _ => carries_pure _
  exact carries_quotedStep (by decide) (by decide) start begin _ value

private theorem carries_lexQuotedIdent (start begin : Nat) :
    Carries alphabet later (lexQuotedIdent start) (lexQuotedIdent begin) rest := by
  refine carries_bind (carries_advance 1) fun _ rest =>
    carries_bind (carries_loop (fun value rest => ?_) []) fun value rest => ?_
  · exact carries_quotedStep (by decide) (by decide) start begin _ value
  · split
    · exact carries_err _ _ _
    · exact carries_pure _

private theorem carries_lexFraction : Carries alphabet later lexFraction lexFraction rest := by
  refine carries_peekTwo (fun current ahead => ?_) fun space ahead white => ?_
  · split
    · split_ifs
      · exact carries_bind (carries_advance 1) fun _ _ => carries_bind (carries_takeWhile _) fun _ _ => carries_pure _
      · exact carries_pure _
    · exact carries_pure _
  · have other : space ≠ '.' := ne_of_isWhitespace white (by decide) (by decide)
    split
    · rename_i missing
      cases missing
    · split
      · rename_i dot
        exact absurd (Option.some.inj dot) other
      · exact carries_pure _

private theorem not_isAsciiDigit {space : Char} (white : alphabet.isWhitespace space = true) :
    isAsciiDigit space = false := by
  cases digit : isAsciiDigit space with
  | false => rfl
  | true =>
    simp only [isAsciiDigit, Bool.and_eq_true, decide_eq_true_eq, Char.le_def, UInt32.le_iff_toNat_le] at digit
    have lower : 48 ≤ space.toNat := digit.1
    have upper : space.toNat ≤ 57 := digit.2
    have ascii : isAscii space = true := decide_eq_true (by omega)
    have notSpace : isAsciiSpace space = false := by
      have other : space ≠ ' ' := by
        rintro rfl
        simp at lower
      simp only [isAsciiSpace, other, decide_false, Bool.false_or, Bool.and_eq_false_iff, decide_eq_false_iff_not]
      omega
    exact absurd rfl (ne_of_isWhitespace white ascii notSpace)

private theorem carries_lexExponent : Carries alphabet later lexExponent lexExponent rest := by
  refine carries_look (fun rest => rest.take 2) fun closed => carries_look List.head? fun _ =>
    carries_look (fun rest => rest[1]?) fun _ => carries_look (fun rest => rest[2]?) fun _ => ?_
  have agree (mark : List Char) (passes : Bool) : Carries alphabet later
      (if passes then advance 2 >>= fun _ => takeWhile isAsciiDigit >>= fun digits => pure (mark ++ digits) else pure [])
      (if passes then advance 2 >>= fun _ => takeWhile isAsciiDigit >>= fun digits => pure (mark ++ digits) else pure [])
      rest := by
    split_ifs
    · exact carries_bind (carries_advance 2) fun _ _ => carries_bind (carries_takeWhile _) fun _ _ => carries_pure _
    · exact carries_pure _
  rcases closed with rfl | ⟨before, space, white, rfl⟩
  · rw [List.append_nil]
    exact agree _ _
  · rcases before with _ | ⟨first, _ | ⟨second, before⟩⟩
    · have noMark : space ≠ 'e' := ne_of_isWhitespace white (by decide) (by decide)
      have noCapital : space ≠ 'E' := ne_of_isWhitespace white (by decide) (by decide)
      simp only [List.nil_append, List.singleton_append, List.head?_cons, Option.some.injEq, noMark, noCapital,
        decide_false, Bool.or_self, Bool.false_and, Bool.false_eq_true, if_false]
      exact carries_pure _
    · have noPlus : space ≠ '+' := ne_of_isWhitespace white (by decide) (by decide)
      have noMinus : space ≠ '-' := ne_of_isWhitespace white (by decide) (by decide)
      have noDigit (ahead : Option Char) : exponentDigit (some space) ahead = false := by
        simp [exponentDigit, noPlus, noMinus, not_isAsciiDigit white]
      simp only [List.cons_append, List.nil_append, List.getElem?_cons_succ, List.getElem?_cons_zero, noDigit,
        Bool.and_false, Bool.false_eq_true, if_false]
      exact carries_pure _
    · have third : (first :: second :: before ++ [space] ++ later)[2]? = (first :: second :: before ++ [space])[2]? := by
        cases before <;> rfl
      rw [third]
      exact agree _ _

private theorem carries_lexNumber (start begin : Nat) :
    Carries alphabet later (lexNumber alphabet start) (lexNumber alphabet begin) rest := by
  refine carries_bind (carries_takeWhile _) fun _ rest => carries_bind carries_lexFraction fun _ rest =>
    carries_bind carries_lexExponent fun _ rest => carries_peek fun next _ => ?_
  split_ifs
  · exact carries_err _ _ _
  · exact carries_pure _

private theorem carries_lexParam (start begin : Nat) : Carries alphabet later (lexParam start) (lexParam begin) rest
    := by
  refine carries_bind (carries_advance 1) fun _ rest => carries_bind (carries_takeWhile _) fun digits rest => ?_
  split_ifs
  · exact carries_err _ _ _
  · split
    · exact carries_pure _
    · exact carries_err _ _ _

private theorem carries_lexSymbol (start begin : Nat) (char : Char) (next : Option Char) :
    Carries alphabet later (lexSymbol start char next) (lexSymbol begin char next) rest := by
  have oneOrTwo (second : Char) (two one : Token) :
      Carries alphabet later (oneOrTwo next second two one) (oneOrTwo next second two one) rest := by
    unfold Lexer.oneOrTwo
    split_ifs
    · exact carries_advance_pure 1 _
    · exact carries_pure _
  unfold lexSymbol
  split <;> (try split_ifs) <;>
    first
      | exact carries_pure _
      | exact carries_err _ _ _
      | exact oneOrTwo _ _ _
      | exact carries_advance_pure 1 _

private theorem carries_nextToken : Carries alphabet later (nextToken alphabet) (nextToken alphabet) rest := by
  refine carries_here fun start begin => carries_peek fun current _ => ?_
  cases current with
  | none => exact carries_pure _
  | some char =>
    dsimp only
    split_ifs
    · exact carries_lexString start begin
    · exact carries_lexQuotedIdent start begin
    · exact carries_lexNumber start begin
    · exact carries_lexParam start begin
    · exact carries_bind (carries_takeWhile _) fun _ _ => carries_pure _
    · exact carries_bind (carries_advance 1) fun _ rest => carries_peek fun next _ =>
        carries_lexSymbol start begin char next

private theorem carries_blockCommentStep (start begin depth : Nat) :
    Carries alphabet later (blockCommentStep start depth) (blockCommentStep begin depth) rest := by
  unfold blockCommentStep
  split
  · exact carries_pure _
  · refine carries_peekTwo (fun current ahead => ?_) fun space ahead white => ?_
    · cases current with
      | none => exact carries_err _ _ _
      | some char =>
        dsimp only
        split_ifs <;> exact carries_advance_pure _ _
    · have noStar : space ≠ '*' := ne_of_isWhitespace white (by decide) (by decide)
      have noSlash : space ≠ '/' := ne_of_isWhitespace white (by decide) (by decide)
      simp only [noStar, noSlash, false_and, if_false]
      exact carries_advance_pure 1 _

private theorem carries_skipTriviaStep (state : Unit) :
    Carries alphabet later (skipTriviaStep alphabet state) (skipTriviaStep alphabet state) rest := by
  refine carries_peekTwo (fun current ahead => ?_) fun space ahead white => ?_
  · cases current with
    | none => exact carries_pure _
    | some char =>
      dsimp only
      split_ifs
      · exact carries_advance_pure 1 _
      · exact carries_bind (carries_takeWhile _) fun _ _ => carries_pure _
      · refine carries_bind (carries_here fun start begin => carries_bind (carries_advance 2) fun _ rest => ?_)
          fun _ _ => carries_pure _
        exact carries_loop (fun depth rest => carries_blockCommentStep start begin depth) 1
      · exact carries_pure _
  · simp only [white, if_true]
    exact carries_advance_pure 1 _

end

/-! ## Between tokens -/

variable (alphabet)

/-- The lexer comes from one place to a later one, between tokens at both, and reads these
tokens on the way. -/
inductive Visits (start : Lexer) : List SpannedToken → Lexer → Prop
  | here : Visits start [] start
  | trivia {tokens : List SpannedToken} {place next : Lexer} (visits : Visits start tokens place)
      (skips : (skipTriviaStep alphabet ()).run place = .ok (.inl (), next)) : Visits start tokens next
  | token {tokens : List SpannedToken} {place next : Lexer} {token : Token} (visits : Visits start tokens place)
      (stays : (skipTriviaStep alphabet ()).run place = .ok (.inr (), place)) (more : place.rest ≠ [])
      (reads : (nextToken alphabet).run place = .ok (token, next)) :
      Visits start (tokens ++ [⟨token, place.offset⟩]) next

/-- The text ends in white space that is outside any comment and literal. -/
def EndsOutside (text : String) : Prop :=
  ∃ tokens offset space, alphabet.isWhitespace space = true ∧ Visits alphabet ⟨0, text.toList⟩ tokens ⟨offset, [space]⟩

/-- The tokens without their places. -/
def plain (tokens : List SpannedToken) : List Token := tokens.map SpannedToken.token

variable {alphabet}

/-! ## Every round takes something -/

section

variable {α β : Type} {place : Lexer}

/-- The reader takes at least one character. -/
def Shrinks (reader : Lex α) (place : Lexer) : Prop :=
  ∀ value after, reader.run place = .ok (value, after) → after.rest.length < place.rest.length

private theorem shrinks_bind {first : Lex α} {next : α → Lex β} (shrinks : Shrinks first place) :
    Shrinks (first >>= next) place := by
  intro result after ran
  obtain ⟨value, middle, ranFirst, ranNext⟩ := bind_run_eq_ok.mp ran
  exact Nat.lt_of_le_of_lt ((next value).le_of_run ranNext).length_le (shrinks value middle ranFirst)

private theorem shrinks_look {view : Lexer → α} {next : α → Lex β} (shrinks : Shrinks (next (view place)) place) :
    Shrinks (.look view >>= next) place := shrinks

private theorem shrinks_advance {count : Nat} (some : 0 < count) (more : place.rest ≠ []) : Shrinks
    (advance count) place := by
  intro value after ran
  cases ran
  change (place.rest.drop count).length < _
  have positive := List.length_pos_of_ne_nil more
  rw [List.length_drop]
  omega

private theorem shrinks_takeWhile {test : Char → Bool} {char : Char} (current : place.rest.head? = some char)
    (passes : test char = true) : Shrinks (takeWhile test) place := by
  obtain ⟨offset, rest⟩ := place
  obtain ⟨rest, rfl⟩ : ∃ others, rest = char :: others := ⟨rest.tail, List.eq_cons_of_mem_head? current⟩
  refine shrinks_look (shrinks_bind (shrinks_advance ?_ (by simp)))
  simp [passes]

private theorem shrinks_nextToken (more : place.rest ≠ []) : Shrinks (nextToken alphabet) place := by
  refine shrinks_look (shrinks_look ?_)
  cases current : place.rest.head? with
  | none => exact absurd (List.head?_eq_none_iff.mp current) more
  | some char =>
    dsimp only
    split_ifs with isQuote isDouble isDigit isDollar isStart
    · exact shrinks_bind (shrinks_advance Nat.one_pos more)
    · exact shrinks_bind (shrinks_advance Nat.one_pos more)
    · exact shrinks_bind (shrinks_takeWhile current isDigit)
    · exact shrinks_bind (shrinks_advance Nat.one_pos more)
    · exact shrinks_bind (shrinks_takeWhile current (by simp [isIdentContinue, isStart]))
    · exact shrinks_bind (shrinks_advance Nat.one_pos more)

/-- A round skips what is between tokens and then ends or reads a token. -/
theorem tokenizeStep_cases {out : List SpannedToken} {answer : List SpannedToken ⊕ List SpannedToken} {after : Lexer}
    (ran : (tokenizeStep alphabet out).run place = .ok (answer, after)) :
    ∃ first, (skipTrivia alphabet).run place = .ok ((), first) ∧
      (first.rest = [] ∧ after = first ∧ answer.isRight = true ∨
        first.rest ≠ [] ∧ ∃ token, (nextToken alphabet).run first = .ok (token, after) ∧
          answer = .inl (out ++ [⟨token, first.offset⟩])) := by
  obtain ⟨_, first, skipped, ran⟩ := bind_run_eq_ok.mp ran
  refine ⟨first, skipped, ?_⟩
  obtain ⟨_, _, looked, ran⟩ := bind_run_eq_ok.mp ran
  cases looked
  obtain ⟨_, _, looked, ran⟩ := bind_run_eq_ok.mp ran
  cases looked
  dsimp only at ran
  cases current : first.rest.head? with
  | none =>
    rw [current] at ran
    cases ran
    exact .inl ⟨List.head?_eq_none_iff.mp current, rfl, rfl⟩
  | some char =>
    rw [current] at ran
    obtain ⟨token, next, reads, ran⟩ := bind_run_eq_ok.mp ran
    cases ran
    refine .inr ⟨?_, token, reads, rfl⟩
    intro empty
    rw [empty] at current
    cases current

private theorem advances_tokenizeStep : Advances (tokenizeStep alphabet) := by
  intro out next before after ran
  obtain ⟨first, skipped, ⟨-, -, ends⟩ | ⟨more, token, reads, -⟩⟩ := tokenizeStep_cases ran
  · cases ends
  · exact Nat.lt_of_lt_of_le (shrinks_nextToken more _ _ reads) ((skipTrivia alphabet).le_of_run skipped).length_le

/-- A step between tokens stays where a token begins, or takes something. -/
theorem skipTriviaStep_cases {answer : Unit ⊕ Unit} {after : Lexer}
    (ran : (skipTriviaStep alphabet ()).run place = .ok (answer, after)) :
    answer = .inr () ∧ after = place ∨ answer = .inl () ∧ after.rest.length < place.rest.length := by
  have goesOn {α : Type} {first : Lex α} (shrinks : Shrinks first place)
      (ran : (first >>= fun _ => pure (.inl ()) : Lex (Unit ⊕ Unit)).run place = .ok (answer, after)) :
      answer = .inr () ∧ after = place ∨ answer = .inl () ∧ after.rest.length < place.rest.length := by
    obtain ⟨value, middle, ranFirst, ended⟩ := bind_run_eq_ok.mp ran
    cases ended
    exact .inr ⟨rfl, shrinks _ _ ranFirst⟩
  obtain ⟨_, _, looked, ran⟩ := bind_run_eq_ok.mp ran
  cases looked
  obtain ⟨_, _, looked, ran⟩ := bind_run_eq_ok.mp ran
  cases looked
  dsimp only at ran
  cases current : place.rest.head? with
  | none =>
    rw [current] at ran
    cases ran
    exact .inl ⟨rfl, rfl⟩
  | some char =>
    rw [current] at ran
    have more : place.rest ≠ [] := by
      intro empty
      rw [empty] at current
      cases current
    dsimp only at ran
    split_ifs at ran with white line block
    · exact goesOn (shrinks_advance Nat.one_pos more) ran
    · refine goesOn (shrinks_takeWhile current ?_) ran
      rw [line.1]
      decide
    · exact goesOn (shrinks_look (shrinks_bind (shrinks_advance Nat.two_pos more))) ran
    · cases ran
      exact .inl ⟨rfl, rfl⟩

private theorem advances_skipTriviaStep : Advances (skipTriviaStep alphabet) := by
  intro state next before after ran
  rcases skipTriviaStep_cases ran with ⟨ends, -⟩ | ⟨-, less⟩
  · cases ends
  · exact less

end

/-! ## All tokens -/

private theorem eq_of_stays {first : Lexer} (stays : (skipTriviaStep alphabet ()).run place = .ok (.inr (), first)) :
    first = place := by
  rcases skipTriviaStep_cases stays with ⟨-, same⟩ | ⟨goesOn, -⟩
  · exact same
  · cases goesOn

/-- A way through a text is also one with more text behind it. -/
theorem Visits.carries (visits : Visits alphabet start tokens place) (closed : Closed alphabet later place.rest)
    (offset : Nat) : ∃ others other, Visits alphabet ⟨offset, start.rest ++ later⟩ others ⟨other, place.rest ++ later⟩ ∧
      plain others = plain tokens := by
  induction visits with
  | here => exact ⟨[], offset, .here, rfl⟩
  | trivia _ skips ih =>
    obtain ⟨others, other, ways, same⟩ := ih (closed.of_suffix ((skipTriviaStep alphabet ()).le_of_run skips))
    obtain ⟨after, skipsAlso⟩ := carries_skipTriviaStep () _ other _ _ skips closed
    exact ⟨others, after, .trivia ways skipsAlso, same⟩
  | token _ stays more reads ih =>
    have inside := closed.of_suffix ((nextToken alphabet).le_of_run reads)
    obtain ⟨others, other, ways, same⟩ := ih inside
    obtain ⟨_, staysAlso⟩ := carries_skipTriviaStep () _ other _ _ stays inside
    rw [eq_of_stays staysAlso] at staysAlso
    obtain ⟨after, readsAlso⟩ := carries_nextToken _ other _ _ reads closed
    refine ⟨_, after, .token ways staysAlso (by simp [more]) readsAlso, ?_⟩
    simp only [plain, List.map_append] at same ⊢
    rw [same]
    rfl

/-- The tokens from here on, after those that are read already. -/
def tokensAfter (alphabet : Alphabet) (out : List SpannedToken) : Lex (List SpannedToken) := loop (tokenizeStep alphabet) out

private theorem skipTrivia_eq : skipTrivia alphabet = skipTriviaStep alphabet () >>= Sum.elim
    (fun _ => skipTrivia alphabet) pure :=
  loop_eq advances_skipTriviaStep ()

private theorem tokensAfter_eq (out : List SpannedToken) :
    tokensAfter alphabet out = tokenizeStep alphabet out >>= Sum.elim (tokensAfter alphabet) pure :=
  loop_eq advances_tokenizeStep out

/-- The tokens on a way come first, and those of what is left follow. -/
theorem Visits.tokensAfter_eq (visits : Visits alphabet start tokens place) (out : List SpannedToken) :
    (tokensAfter alphabet out).run start = (tokensAfter alphabet (out ++ tokens)).run place := by
  induction visits with
  | here => rw [List.append_nil]
  | @trivia tokens place next _ skips ih =>
    have same : (skipTrivia alphabet).run place = (skipTrivia alphabet).run next := by
      conv_lhs => rw [skipTrivia_eq, run_bind_ok skips]
      rfl
    rw [ih, Lexer.tokensAfter_eq, run_bind, runThen, tokenizeStep, run_bind, runThen, same]
    rfl
  | @token tokens place next token _ stays more reads ih =>
    have skipped : (skipTrivia alphabet).run place = .ok ((), place) := by
      rw [skipTrivia_eq, run_bind_ok stays]
      rfl
    have stepped : (tokenizeStep alphabet (out ++ tokens)).run place =
        .ok (.inl (out ++ tokens ++ [⟨token, place.offset⟩]), next) := by
      obtain ⟨char, rest, isRest⟩ := List.exists_cons_of_ne_nil more
      have current : peek.run place = .ok (some char, place) := by
        change Except.ok (place.rest.head?, place) = _
        rw [isRest]
        rfl
      have offset : Lexer.here.run place = .ok (place.offset, place) := rfl
      refine (run_bind_ok skipped).trans ((run_bind_ok offset).trans ((run_bind_ok current).trans ?_))
      exact run_bind_ok reads
    rw [ih, Lexer.tokensAfter_eq, run_bind_ok stepped, List.append_assoc]
    rfl

/-- What is between tokens is skipped step by step. -/
theorem Visits.skipTrivia {first : Lexer} (visits : Visits alphabet start tokens place)
    (skipped : (skipTrivia alphabet).run place = .ok ((), first)) :
    Visits alphabet start tokens first ∧ (skipTriviaStep alphabet ()).run first = .ok (.inr (), first) := by
  refine @loop_induction _ _ _ _ _ _ _ (fun _ place => Visits alphabet start tokens place)
    (fun _ first => Visits alphabet start tokens first ∧ (skipTriviaStep alphabet ()).run first = .ok (.inr (), first))
    ?_ ?_ _ _ _ _ visits skipped
  · intro _ _ _ _ reached skips
    exact .trivia reached skips
  · intro _ _ _ _ reached stays
    obtain rfl := eq_of_stays stays
    exact ⟨reached, stays⟩

/-- Tokens are read on a way to the end. -/
theorem visits_of_tokensAfter {last : Lexer} {out : List SpannedToken}
    (ran : (tokensAfter alphabet out).run start = .ok (tokens, last)) :
    ∃ read offset, Visits alphabet start read ⟨offset, []⟩ := by
  refine @loop_induction _ _ _ _ _ _ _ (fun _ place => ∃ read, Visits alphabet start read place)
    (fun _ _ => ∃ read offset, Visits alphabet start read ⟨offset, []⟩) ?_ ?_ _ _ _ _ ⟨[], .here⟩ ran
  · rintro _ _ _ _ ⟨read, visits⟩ stepped
    obtain ⟨first, skipped, ⟨-, -, ends⟩ | ⟨more, token, reads, -⟩⟩ := tokenizeStep_cases stepped
    · cases ends
    · obtain ⟨reached, stays⟩ := visits.skipTrivia skipped
      exact ⟨_, .token reached stays more reads⟩
  · rintro _ _ _ _ ⟨read, visits⟩ stepped
    obtain ⟨⟨offset, rest⟩, skipped, ⟨rfl, -, -⟩ | ⟨_, _, _, goesOn⟩⟩ := tokenizeStep_cases stepped
    · exact ⟨read, offset, (visits.skipTrivia skipped).1⟩
    · cases goesOn

/-! ## Texts in quotes -/

/-- A text with its marks doubled. -/
def doubled (mark : Char) (text : List Char) : List Char :=
  text.flatMap fun char => if char = mark then [mark, mark] else [char]

/-- The two ways to quote. -/
inductive Quoting where
  | literal
  | identifier
deriving DecidableEq

namespace Quoting

def mark : Quoting → Char
  | literal => quote
  | identifier => doubleQuote

/-- What a quoted text is read as. -/
def token : Quoting → String → Token
  | literal, text => .stringLit text
  | identifier, text => .ident text

/-- A text between marks. -/
def quoted (quoting : Quoting) (text : String) : List Char :=
  quoting.mark :: (doubled quoting.mark text.toList ++ [quoting.mark])

end Quoting

private theorem run_quotedStep (mark char : Char) (unterminated : Lex (List Char)) (value rest : List Char)
    (offset : Nat) :
    (quotedStep mark unterminated value).run ⟨offset, char :: rest⟩ =
      if char = mark then
        if rest[0]? = some mark then .ok (.inl (value ++ [mark]), skip 2 ⟨offset, char :: rest⟩)
        else .ok (.inr value, skip 1 ⟨offset, char :: rest⟩)
      else .ok (.inl (value ++ [char]), skip 1 ⟨offset, char :: rest⟩) := by
  change Reader.run (if char = mark then if rest[0]? = some mark then _ else _ else _) _ = _
  split_ifs <;> rfl

private theorem advances_quotedStep (mark : Char) (start : Nat) (message : String) :
    Advances (quotedStep mark (err start message)) := by
  rintro value next ⟨offset, rest⟩ after ran
  cases rest with
  | nil => cases ran
  | cons char rest =>
    rw [run_quotedStep] at ran
    split_ifs at ran <;> cases ran <;> simp only [Input.size, skip, List.length_drop, List.length_cons] <;> omega

private theorem run_quoted {mark : Char} {start : Nat} {message : String} (ends : after.head? ≠ some mark)
    (text value : List Char) (offset : Nat) :
    ∃ last, (loop (quotedStep mark (err start message)) value).run ⟨offset, doubled mark text ++ mark :: after⟩ =
      .ok (value ++ text, ⟨last, after⟩) := by
  rw [List.head?_eq_getElem?] at ends
  induction text generalizing value offset with
  | nil =>
    have stepped := run_quotedStep mark mark (err start message) value after offset
    rw [if_pos rfl, if_neg ends] at stepped
    rw [loop_eq (advances_quotedStep mark start message), List.append_nil]
    exact ⟨_, run_bind_ok stepped⟩
  | cons char text ih =>
    rw [loop_eq (advances_quotedStep mark start message), doubled, List.flatMap_cons]
    by_cases isMark : char = mark
    · have stepped := run_quotedStep mark mark (err start message) value (mark :: (doubled mark text ++ mark :: after)) offset
      rw [if_pos rfl, List.getElem?_cons_zero, if_pos rfl] at stepped
      obtain ⟨last, ran⟩ := ih (value ++ [mark]) (skip 2 ⟨offset, mark :: mark :: (doubled mark text ++ mark :: after)⟩).offset
      rw [if_pos isMark, isMark, List.append_cons value mark text]
      exact ⟨last, (run_bind_ok stepped).trans ran⟩
    · have stepped := run_quotedStep mark char (err start message) value (doubled mark text ++ mark :: after) offset
      rw [if_neg isMark] at stepped
      obtain ⟨last, ran⟩ := ih (value ++ [char]) (skip 1 ⟨offset, char :: (doubled mark text ++ mark :: after)⟩).offset
      rw [if_neg isMark, List.append_cons value char text]
      exact ⟨last, (run_bind_ok stepped).trans ran⟩

private theorem run_nextToken_quoted {quoting : Quoting} {text : String} (named : quoting = .identifier → text ≠ "")
    (ends : after.head? ≠ some quoting.mark) (offset : Nat) :
    ∃ last, (nextToken alphabet).run ⟨offset, quoting.quoted text ++ after⟩ = .ok (quoting.token text, ⟨last, after⟩) := by
  rw [Quoting.quoted, List.cons_append, List.append_assoc, List.singleton_append]
  cases quoting with
  | literal =>
    obtain ⟨last, ran⟩ := run_quoted ends text.toList []
      (skip 1 ⟨offset, quote :: (doubled quote text.toList ++ quote :: after)⟩).offset
    refine ⟨last, (run_bind_ok ran).trans ?_⟩
    rw [List.nil_append, String.ofList_toList]
    rfl
  | identifier =>
    obtain ⟨last, ran⟩ := run_quoted ends text.toList []
      (skip 1 ⟨offset, doubleQuote :: (doubled doubleQuote text.toList ++ doubleQuote :: after)⟩).offset
    refine ⟨last, (run_bind_ok ran).trans ?_⟩
    have notEmpty : text.toList.isEmpty = false := by simpa using named rfl
    rw [List.nil_append, notEmpty, if_neg Bool.false_ne_true, String.ofList_toList]
    rfl

private theorem skips_space {space : Char} (white : alphabet.isWhitespace space = true) (offset : Nat)
    (rest : List Char) :
    (skipTriviaStep alphabet ()).run ⟨offset, space :: rest⟩ = .ok (.inl (), skip 1 ⟨offset, space :: rest⟩) := by
  change Reader.run (if alphabet.isWhitespace space = true then _ else _) _ = _
  rw [if_pos white]
  rfl

private theorem stays_at_mark (quoting : Quoting) (offset : Nat) (rest : List Char) :
    (skipTriviaStep alphabet ()).run ⟨offset, quoting.mark :: rest⟩ = .ok (.inr (), ⟨offset, quoting.mark :: rest⟩) := by
  have ascii : isAscii quoting.mark = true := by cases quoting <;> decide
  have notSpace : isAsciiSpace quoting.mark = false := by cases quoting <;> decide
  have noDash : quoting.mark ≠ '-' := by cases quoting <;> decide
  have noSlash : quoting.mark ≠ '/' := by cases quoting <;> decide
  change Reader.run (if alphabet.isWhitespace quoting.mark = true then _ else _) _ = _
  rw [alphabet.isWhitespace_ascii _ ascii, notSpace, if_neg Bool.false_ne_true, if_neg (by simp [noDash]),
    if_neg (by simp [noSlash])]
  rfl

private theorem Visits.run_tokensAfter {offset : Nat} (visits : Visits alphabet start tokens ⟨offset, []⟩)
    (out : List SpannedToken) :
    (tokensAfter alphabet out).run start = .ok (out ++ tokens ++ [⟨.eof, offset⟩], ⟨offset, []⟩) := by
  rw [visits.tokensAfter_eq]
  rfl

/-- The same text gives the same tokens wherever it begins. -/
theorem plain_tokensAfter (out : List SpannedToken) (start : Nat) (text : List Char) :
    (((tokensAfter alphabet out).run ⟨start, text⟩).toOption.map fun answer => plain answer.1) =
      ((tokensAfter alphabet []).run ⟨0, text⟩).toOption.map fun answer => plain out ++ plain answer.1 := by
  have carried (begin : Nat) {other last : Nat} {read : List SpannedToken}
      (visits : Visits alphabet ⟨other, text⟩ read ⟨last, []⟩) :
      ∃ others offset, Visits alphabet ⟨begin, text⟩ others ⟨offset, []⟩ ∧ plain others = plain read := by
    simpa using visits.carries (.inl rfl : Closed alphabet [] []) begin
  cases ran : (tokensAfter alphabet []).run ⟨0, text⟩ with
  | ok answer =>
    obtain ⟨read, last, visits⟩ := visits_of_tokensAfter ran
    obtain ⟨others, offset, moved, same⟩ := carried start visits
    cases ran.symm.trans (visits.run_tokensAfter [])
    rw [moved.run_tokensAfter out]
    simp only [plain] at same
    simp [Except.toOption, plain, same]
  | error error =>
    cases ranLater : (tokensAfter alphabet out).run ⟨start, text⟩ with
    | error _ => rfl
    | ok answer =>
      obtain ⟨read, last, visits⟩ := visits_of_tokensAfter ranLater
      obtain ⟨others, offset, moved, -⟩ := carried 0 visits
      cases ran.symm.trans (moved.run_tokensAfter [])

private theorem tokenize_toOption (text : String) : (tokenize alphabet text).toOption.map plain =
      ((tokensAfter alphabet []).run ⟨0, text.toList⟩).toOption.map fun answer => plain answer.1 := by
  change (Prod.fst <$> (tokensAfter alphabet []).run ⟨0, text.toList⟩ : Except _ _).toOption.map plain = _
  cases (tokensAfter alphabet []).run ⟨0, text.toList⟩ <;> rfl

/-- A quoted text is one token, whatever is in it: what is before it and what is after it
are read as without it. -/
theorem quoted_text_is_one_token {before after text : String} {quoting : Quoting} {tokens : List SpannedToken}
    (outside : EndsOutside alphabet before) (reads : tokenize alphabet before = .ok tokens)
    (named : quoting = .identifier → text ≠ "") (ends : after.toList.head? ≠ some quoting.mark) :
    (tokenize alphabet (before ++ .ofList (quoting.quoted text) ++ after)).toOption.map plain =
      ((tokenize alphabet after).toOption.map plain).map fun later =>
        plain tokens.dropLast ++ quoting.token text :: later := by
  obtain ⟨read, offset, space, white, visits⟩ := outside
  -- the text before by itself
  have whole : plain tokens.dropLast = plain read := by
    have ran := (Visits.trivia visits (skips_space white offset [])).run_tokensAfter []
    have same : tokenize alphabet before = .ok (read ++ [_]) := congrArg (Prod.fst <$> ·) ran
    cases reads.symm.trans same
    simp
  -- and with the quoted text behind it
  obtain ⟨others, place, carried, same⟩ := visits.carries
    (.inr ⟨[], space, white, rfl⟩ : Closed alphabet (quoting.quoted text ++ after.toList) [space]) 0
  obtain ⟨last, isToken⟩ := @run_nextToken_quoted alphabet _ _ text named ends
    (skip 1 ⟨place, space :: (quoting.quoted text ++ after.toList)⟩).offset
  have quotes := Visits.token (Visits.trivia carried (skips_space white _ _)) (stays_at_mark quoting _ _)
    (by simp [skip, Quoting.quoted]) isToken
  rw [tokenize_toOption, tokenize_toOption]
  have isText : (before ++ .ofList (quoting.quoted text) ++ after).toList =
      before.toList ++ (quoting.quoted text ++ after.toList) := by simp
  rw [isText, quotes.tokensAfter_eq, plain_tokensAfter, Option.map_map, whole, ← same]
  simp [plain, Function.comp_def]

/-- An alphabet in which nothing outside ASCII is a letter or white space. -/
def asciiAlphabet : Alphabet where
  isWhitespace := isAsciiSpace
  isAlphabetic _ := false
  toLowercase text := .ofList (text.toList.map Char.toLower)
  readFloat _ := none
  isWhitespace_ascii _ _ := rfl
  toLowercase_ascii _ _ := by rw [String.toList_ofList]
  readFloat_finite _ _ read := by cases read

theorem quoted_mark_and_dashes :
    (tokenize asciiAlphabet ("x " ++ .ofList (Quoting.literal.quoted "' --") ++ ",")).toOption.map plain =
      some [.ident "x", .stringLit "' --", .comma, .eof] := by
  have word : (nextToken asciiAlphabet).run ⟨0, ['x', ' ']⟩ = .ok (.ident "x", ⟨1, [' ']⟩) := rfl
  have outside : EndsOutside asciiAlphabet "x " := ⟨_, 1, ' ', rfl, .token .here rfl (by simp) word⟩
  have reads : tokenize asciiAlphabet "x " = .ok [⟨.ident "x", 0⟩, ⟨.eof, 2⟩] := rfl
  exact @quoted_text_is_one_token asciiAlphabet "x " "," "' --" .literal _ outside reads (by simp) (by decide)

/-- Texts compose: what follows one that ends between tokens is read, or refused, as if alone. -/
theorem texts_compose {before after : String} {tokens : List SpannedToken} (outside : EndsOutside alphabet before)
    (reads : tokenize alphabet before = .ok tokens) :
    (tokenize alphabet (before ++ after)).toOption.map plain =
      ((tokenize alphabet after).toOption.map plain).map fun later => plain tokens.dropLast ++ later := by
  obtain ⟨read, offset, space, white, visits⟩ := outside
  have ran := (Visits.trivia visits (skips_space white offset [])).run_tokensAfter []
  have alone : tokenize alphabet before = .ok (read ++ [_]) := congrArg (Prod.fst <$> ·) ran
  cases reads.symm.trans alone
  obtain ⟨others, place, carried, same⟩ := visits.carries
    (.inr ⟨[], space, white, rfl⟩ : Closed alphabet after.toList [space]) 0
  rw [tokenize_toOption, tokenize_toOption, String.toList_append,
    (Visits.trivia carried (skips_space white _ _)).tokensAfter_eq, List.nil_append]
  refine (plain_tokensAfter ..).trans ?_
  simp [same, Function.comp_def]

theorem stray_quote_after_word : (tokenize asciiAlphabet ("x " ++ "'")).toOption.map plain = none := by
  have word : (nextToken asciiAlphabet).run ⟨0, ['x', ' ']⟩ = .ok (.ident "x", ⟨1, [' ']⟩) := rfl
  exact @texts_compose asciiAlphabet "x " "'" _ ⟨_, 1, ' ', rfl, .token .here rfl (by simp) word⟩ rfl

end Ferrite.Lexer
