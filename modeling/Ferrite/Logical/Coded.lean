import Ferrite.Logical.Decoding

/-!
# Readers of one encoding

A reader belongs to an encoding if it reads every valid value from its encoding, whatever
follows, and if all it ever takes is the encoding of the value it gives. Reading a list as a
whole is then a bijection between the valid values and the lists that are accepted.
-/

namespace Ferrite.Logical.Reader

variable {τ ε α β : Type}

structure Coded (reader : Reader (Buffer τ) ε α) (encode : α → List τ) (valid : α → Prop) : Prop where
  reads : ∀ ⦃value⦄, valid value → Reads reader (encode value) value
  takes : ∀ ⦃input rest value⦄, reader.run input = .ok (value, rest) →
    valid value ∧ input.rest = encode value ++ rest.rest

variable {encode : α → List τ} {valid : α → Prop}

variable {first reader : Reader (Buffer τ) ε α} {next : α → Reader (Buffer τ) ε β} {validResult : β → Prop}

theorem coded_take (short : ε) (count : Nat) :
    Coded (take short count : Reader (Buffer τ) ε (List τ)) id (fun taken => taken.length = count) where
  reads taken exact := reads_take exact
  takes := by
    rintro ⟨input⟩ rest taken ran
    by_cases enough : count ≤ input.length
    · rw [run_take enough] at ran
      cases ran
      exact ⟨List.length_take_of_le enough, (List.take_append_drop count input).symm⟩
    · rw [run_take_short (Nat.lt_of_not_le enough)] at ran
      cases ran

/-- A reader goes on with what it has read: the first part of an encoding is found again from
the result. -/
theorem Coded.bind (coded : Coded first encode valid) (source : β → α) {encodeNext : β → List τ}
    (reads : ∀ result, validResult result →
      valid (source result) ∧ Reads (next (source result)) (encodeNext result) result)
    (takes : ∀ value input rest result, valid value → (next value).run input = .ok (result, rest) →
      validResult result ∧ source result = value ∧ input.rest = encodeNext result ++ rest.rest) :
    Coded (first >>= next) (fun result => encode (source result) ++ encodeNext result) validResult where
  reads result isValid := by
    obtain ⟨validSource, readsNext⟩ := reads result isValid
    exact (coded.reads validSource).bind readsNext
  takes := by
    intro input rest result ran
    obtain ⟨value, middle, ranFirst, ranNext⟩ := bind_run_eq_ok.mp ran
    obtain ⟨isValid, taken⟩ := coded.takes ranFirst
    obtain ⟨isResult, same, takenNext⟩ := takes value middle rest result isValid ranNext
    exact ⟨isResult, by rw [taken, takenNext, same, List.append_assoc]⟩

/-- A reader whose result is looked at again, without taking more. -/
theorem Coded.refine (coded : Coded first encode valid) (source : β → α)
    (accepts : ∀ result, validResult result → valid (source result) ∧ next (source result) = pure result)
    (refuses : ∀ value input rest result, valid value → (next value).run input = .ok (result, rest) →
      validResult result ∧ source result = value ∧ rest = input) :
    Coded (first >>= next) (fun result => encode (source result)) validResult := by
  have bound : Coded (first >>= next) (fun result => encode (source result) ++ []) validResult := by
    refine coded.bind source ?_ ?_
    · intro result isValid
      obtain ⟨validSource, same⟩ := accepts result isValid
      exact ⟨validSource, same ▸ reads_pure result⟩
    · intro value input rest result isValid ran
      obtain ⟨isResult, same, untouched⟩ := refuses value input rest result isValid ran
      exact ⟨isResult, same, by rw [untouched, List.nil_append]⟩
  simpa only [List.append_nil] using bound

theorem coded_times (coded : Coded reader encode valid) (count : Nat) :
    Coded (times reader count) (List.flatMap encode) (fun values => values.length = count ∧ ∀ value ∈ values, valid value) where
  reads values isValid := by
    rw [← isValid.1]
    exact reads_times fun value member => coded.reads (isValid.2 value member)
  takes := by
    induction count with
    | zero =>
      intro input rest values ran
      cases ran
      exact ⟨⟨rfl, nofun⟩, rfl⟩
    | succ count ih =>
      intro input rest values ran
      obtain ⟨first, middle, ranFirst, ran⟩ := bind_run_eq_ok.mp ran
      obtain ⟨others, last, ranOthers, ranPure⟩ := bind_run_eq_ok.mp ran
      cases ranPure
      obtain ⟨validFirst, takenFirst⟩ := coded.takes ranFirst
      obtain ⟨⟨length, validOthers⟩, takenOthers⟩ := ih ranOthers
      refine ⟨⟨by rw [List.length_cons, length], List.forall_mem_cons.mpr ⟨validFirst, validOthers⟩⟩, ?_⟩
      rw [takenFirst, takenOthers, List.flatMap_cons, List.append_assoc]

/-- A count, then so many values. -/
theorem Coded.counted {counter : Reader (Buffer τ) ε Nat} {encodeCount : Nat → List τ} {validCount : Nat → Prop}
    (count : Coded counter encodeCount validCount) (coded : Coded reader encode valid) :
    Coded (counter >>= times reader) (fun values => encodeCount values.length ++ values.flatMap encode)
      (fun values => validCount values.length ∧ ∀ value ∈ values, valid value) := by
  refine count.bind List.length ?_ ?_
  · intro values isValid
    exact ⟨isValid.1, (coded_times coded _).reads ⟨rfl, isValid.2⟩⟩
  · intro number input rest values validNumber ran
    obtain ⟨⟨rfl, validValues⟩, taken⟩ := (coded_times coded number).takes ran
    exact ⟨⟨validNumber, validValues⟩, rfl, taken⟩

/-! ## Lists that end with a mark -/

section

variable {item : Reader (Buffer τ) ε (Option α)}

/-- Add the next value to those read so far, or stop at the mark. -/
def push (item : Reader (Buffer τ) ε (Option α)) (values : List α) : Reader (Buffer τ) ε (List α ⊕ List α) := do
  match ← item with
  | some value => pure (.inl (values ++ [value]))
  | none => pure (.inr values)

private theorem run_push {values next : List α} {before after : Buffer τ}
    (ran : (push item values).run before = .ok (.inl next, after)) :
    ∃ value, item.run before = .ok (some value, after) ∧ next = values ++ [value] := by
  obtain ⟨found, middle, ranItem, ran⟩ := bind_run_eq_ok.mp ran
  cases found with
  | none => cases ran
  | some value =>
    cases ran
    exact ⟨value, ranItem, rfl⟩

private theorem run_push_none {values result : List α} {before after : Buffer τ}
    (ran : (push item values).run before = .ok (.inr result, after)) :
    item.run before = .ok (none, after) ∧ result = values := by
  obtain ⟨found, middle, ranItem, ran⟩ := bind_run_eq_ok.mp ran
  cases found with
  | none =>
    cases ran
    exact ⟨ranItem, rfl⟩
  | some value => cases ran

variable {encode : Option α → List τ} {valid : Option α → Prop}

/-- Values up to a mark. -/
def terminated [Inhabited ε] (item : Reader (Buffer τ) ε (Option α)) : Reader (Buffer τ) ε (List α) :=
  loop (push item) []

private theorem Coded.advances (coded : Coded item encode valid) (proper : ∀ value, encode (some value) ≠ []) :
    Advances (push item) := by
  intro values next before after ran
  obtain ⟨value, ranItem, -⟩ := run_push ran
  obtain ⟨-, taken⟩ := coded.takes ranItem
  change after.rest.length < before.rest.length
  have := List.length_pos_iff.mpr (proper value)
  rw [taken, List.length_append]
  omega

theorem Coded.terminated [Inhabited ε] (coded : Coded item encode valid) (proper : ∀ value, encode (some value) ≠ []) :
    Coded (terminated item) (fun values => values.flatMap (fun value => encode (some value)) ++ encode none)
      (fun values => valid none ∧ ∀ value ∈ values, valid (some value)) where
  reads values isValid := by
    obtain ⟨validNone, validValues⟩ := isValid
    suffices general : ∀ earlier : List α, Reads (loop (push item) earlier)
        (values.flatMap (fun value => encode (some value)) ++ encode none) (earlier ++ values) from general []
    induction values with
    | nil =>
      intro earlier more
      rw [loop_eq (coded.advances proper), List.append_nil]
      have ran : (push item earlier).run ⟨encode none ++ more⟩ = .ok (.inr earlier, ⟨more⟩) :=
        run_bind_ok (coded.reads validNone more)
      exact run_bind_ok ran
    | cons value values ih =>
      intro earlier more
      obtain ⟨validValue, validValues⟩ := List.forall_mem_cons.mp validValues
      have later := ih validValues (earlier ++ [value])
      rw [List.append_assoc, List.singleton_append] at later
      have ran : (push item earlier).run ⟨encode (some value) ++
          ((values.flatMap (fun value => encode (some value)) ++ encode none) ++ more)⟩ =
          .ok (.inl (earlier ++ [value]), ⟨(values.flatMap (fun value => encode (some value)) ++ encode none) ++ more⟩) :=
        run_bind_ok (coded.reads validValue _)
      have isInput : (value :: values).flatMap (fun value => encode (some value)) ++ encode none ++ more =
          encode (some value) ++ ((values.flatMap (fun value => encode (some value)) ++ encode none) ++ more) := by
        simp
      rw [isInput, loop_eq (coded.advances proper), run_bind_ok ran]
      exact later more
  takes := by
    intro input rest values ran
    let SoFar (earlier : List α) (before : Buffer τ) : Prop :=
      (∀ value ∈ earlier, valid (some value)) ∧
        input.rest = earlier.flatMap (fun value => encode (some value)) ++ before.rest
    let AtEnd (values : List α) (after : Buffer τ) : Prop :=
      (valid none ∧ ∀ value ∈ values, valid (some value)) ∧
        input.rest = (values.flatMap (fun value => encode (some value)) ++ encode none) ++ after.rest
    have kept : ∀ ⦃earlier next before after⦄, SoFar earlier before →
        (push item earlier).run before = .ok (.inl next, after) → SoFar next after := by
      rintro earlier next before after ⟨validEarlier, soFar⟩ stepped
      obtain ⟨value, ranItem, rfl⟩ := run_push stepped
      obtain ⟨validValue, taken⟩ := coded.takes ranItem
      refine ⟨?_, ?_⟩
      · simpa [or_imp, forall_and] using ⟨validEarlier, validValue⟩
      · rw [soFar, taken]
        simp
    have ends : ∀ ⦃earlier result before after⦄, SoFar earlier before →
        (push item earlier).run before = .ok (.inr result, after) → AtEnd result after := by
      rintro earlier result before after ⟨validEarlier, soFar⟩ stepped
      obtain ⟨ranItem, rfl⟩ := run_push_none stepped
      obtain ⟨validNone, taken⟩ := coded.takes ranItem
      refine ⟨⟨validNone, validEarlier⟩, ?_⟩
      rw [soFar, taken, List.append_assoc]
    have initially : SoFar [] input := ⟨by simp, rfl⟩
    exact loop_induction kept ends initially ran

end

end Ferrite.Logical.Reader
