import Ferrite.Logical.Reader
import Mathlib.Data.List.Infix

/-!
# Encodings read back

A reader of a list that looks only at what it takes: more input after it changes nothing
but what is left. If such a reader reads a value from an encoding, whatever follows, then
reading the encoding as a whole gives the value back, and no shorter and no longer list
is read as a whole.
-/

namespace Ferrite.Logical

/-- The part of a list not yet read. -/
structure Buffer (τ : Type) where
  rest : List τ

namespace Buffer

variable {τ : Type}

instance : Input (Buffer τ) where
  le after before := after.rest <:+ before.rest
  le_refl buffer := List.suffix_refl buffer.rest
  le_trans _ _ _ first second := first.trans second
  size buffer := buffer.rest.length
  size_mono suffix := suffix.length_le

/-- Skip some elements. -/
def skip (count : Nat) (buffer : Buffer τ) : Buffer τ := ⟨buffer.rest.drop count⟩

theorem skip_le (count : Nat) (buffer : Buffer τ) : buffer.skip count ≤ buffer := List.drop_suffix count buffer.rest

end Buffer

namespace Reader

variable {τ ε α β : Type}

/-- The next elements, or a failure if there are too few. -/
def take (short : ε) (count : Nat) : Reader (Buffer τ) ε (List τ) := do
  let taken ← look fun buffer => buffer.rest.take count
  if taken.length < count then fail fun _ => short
  else do
    move (Buffer.skip count) (Buffer.skip_le count)
    pure taken

variable {short : ε} {count : Nat} {reader : Reader (Buffer τ) ε α} {value : α} {encoding : List τ}

variable {input first second : List τ} {next : α → Reader (Buffer τ) ε β} {trailing : ε}

theorem run_take (enough : count ≤ input.length) :
    (take short count).run ⟨input⟩ = .ok (input.take count, ⟨input.drop count⟩) := by
  have long : ¬(input.take count).length < count := by
    rw [List.length_take]
    omega
  rw [take, run_bind_ok (run_look _ _), if_neg long]
  rfl

theorem run_take_short (few : input.length < count) : (take short count).run ⟨input⟩ = .error short := by
  have short : (input.take count).length < count := by
    rw [List.length_take]
    omega
  rw [take, run_bind_ok (run_look _ _), if_pos short]
  rfl

/-- One element after another, a given number of them. -/
def times (reader : Reader (Buffer τ) ε α) : Nat → Reader (Buffer τ) ε (List α)
  | 0 => pure []
  | count + 1 => do
    let first ← reader
    let others ← times reader count
    pure (first :: others)

/-! ## Reading an encoding -/

/-- The reader takes exactly the encoding and gives the value, whatever follows. -/
def Reads (reader : Reader (Buffer τ) ε α) (encoding : List τ) (value : α) : Prop :=
  ∀ more, reader.run ⟨encoding ++ more⟩ = .ok (value, ⟨more⟩)

theorem reads_pure (value : α) : Reads (pure value : Reader (Buffer τ) ε α) [] value := fun _ => rfl

/-- Two readers in a row read two encodings in a row. -/
theorem Reads.bind {result : β} (reads : Reads reader first value) (rest : Reads (next value) second result) :
    Reads (reader >>= next) (first ++ second) result := by
  intro more
  rw [List.append_assoc, run_bind_ok (reads _)]
  exact rest more

/-- Taking the length of an encoding reads all of it. -/
theorem reads_take (exact : encoding.length = count) : Reads (take short count) encoding encoding := by
  intro more
  subst exact
  rw [run_take (by simp), List.take_left, List.drop_left]

/-- The last thing read decides the result. -/
theorem Reads.map {make : α → β} (reads : Reads reader encoding value) :
    Reads (reader >>= fun value => pure (make value)) encoding (make value) := by
  have both : Reads (reader >>= fun value => pure (make value)) (encoding ++ []) (make value) :=
    reads.bind (reads_pure (make value))
  rwa [List.append_nil] at both

theorem reads_times {encode : α → List τ} {values : List α}
    (reads : ∀ value ∈ values, Reads reader (encode value) value) :
    Reads (times reader values.length) (values.flatMap encode) values := by
  induction values with
  | nil => exact reads_pure []
  | cons value values ih =>
    have first := reads value List.mem_cons_self
    have others := ih fun other member => reads other (List.mem_cons_of_mem _ member)
    exact first.bind others.map

/-! ## Looking only at what is taken -/

/-- What follows the part a reader takes makes no difference. -/
def Local (reader : Reader (Buffer τ) ε α) : Prop :=
  ∀ ⦃input rest value⦄ more, reader.run ⟨input⟩ = .ok (value, ⟨rest⟩) →
    reader.run ⟨input ++ more⟩ = .ok (value, ⟨rest ++ more⟩)

theorem local_pure (value : α) : Local (pure value : Reader (Buffer τ) ε α) := by
  intro input rest result more ran
  cases ran
  rfl

theorem local_fail (error : Buffer τ → ε) : Local (fail error : Reader (Buffer τ) ε α) :=
  fun _ _ _ _ ran => nomatch ran

theorem Local.bind (first : Local reader) (rest : ∀ value, Local (next value)) : Local (reader >>= next) := by
  intro input left result more ran
  obtain ⟨value, middle, ranFirst, ranNext⟩ := bind_run_eq_ok.mp ran
  rw [run_bind_ok (first more ranFirst)]
  exact rest value more ranNext

theorem local_take (short : ε) (count : Nat) : Local (take short count : Reader (Buffer τ) ε (List τ)) := by
  intro input rest value more ran
  by_cases enough : count ≤ input.length
  · rw [run_take enough] at ran
    cases ran
    have longer : count ≤ (input ++ more).length := by
      rw [List.length_append]
      omega
    rw [run_take longer, List.take_append_of_le_length enough, List.drop_append_of_le_length enough]
  · rw [run_take_short (Nat.lt_of_not_le enough)] at ran
    cases ran

theorem local_times (stays : Local reader) (count : Nat) : Local (times reader count) := by
  induction count with
  | zero => exact local_pure []
  | succ count ih => exact stays.bind fun _ => ih.bind fun _ => local_pure _

/-! ## Reading a list as a whole -/

/-- Read, and refuse a list that goes on. -/
def whole (reader : Reader (Buffer τ) ε α) (trailing : ε) (input : List τ) : Except ε α :=
  match reader.run ⟨input⟩ with
  | .error error => .error error
  | .ok (value, rest) => if rest.rest.isEmpty then .ok value else .error trailing

theorem whole_append {more : List τ} (reads : Reads reader encoding value) (some : more ≠ []) :
    whole reader trailing (encoding ++ more) = .error trailing := by
  rw [whole, reads more]
  cases more with
  | nil => exact absurd rfl some
  | cons => rfl

/-- The encoding gives the value, and no list that it is a part of, or that is a part of
it from the front, gives any. -/
structure Exact (decode : List τ → Except ε α) (encoding : List τ) (value : α) : Prop where
  reads : decode encoding = .ok value
  shorter : ∀ ⦃input⦄, input <+: encoding → input ≠ encoding → ∃ error, decode input = .error error
  longer : ∀ ⦃input⦄, encoding <+: input → input ≠ encoding → ∃ error, decode input = .error error

theorem exact_whole (reads : Reads reader encoding value) (stays : Local reader) :
    Exact (whole reader trailing) encoding value where
  reads := by
    have ran := reads []
    rw [List.append_nil] at ran
    rw [whole, ran]
    rfl
  shorter := by
    rintro input ⟨more, rfl⟩ proper
    cases ran : reader.run ⟨input⟩ with
    | error error => exact ⟨error, by rw [whole, ran]⟩
    | ok answer =>
      -- what was missing would be left over after the whole encoding
      have longer := stays more ran
      have all := reads []
      rw [List.append_nil, longer] at all
      have none : answer.2.rest ++ more = [] := congrArg (fun answer => answer.2.rest) (Except.ok.inj all)
      obtain ⟨-, rfl⟩ := List.append_eq_nil_iff.mp none
      exact absurd (List.append_nil input).symm proper
  longer := by
    rintro input ⟨more, rfl⟩ proper
    refine ⟨trailing, whole_append reads ?_⟩
    rintro rfl
    exact proper (List.append_nil encoding)

/-- Of two such encodings neither goes on where the other ends. -/
theorem Exact.unique {decode : List τ → Except ε α} {other : α} (exact : Exact decode first value)
    (exactOther : Exact decode second other) (part : first <+: second) : value = other := by
  by_cases same : second = first
  · subst same
    exact Except.ok.inj (exact.reads.symm.trans exactOther.reads)
  · obtain ⟨error, refused⟩ := exact.longer part same
    rw [exactOther.reads] at refused
    cases refused

end Reader
end Ferrite.Logical
