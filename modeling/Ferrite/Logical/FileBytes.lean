import Mathlib.Data.List.Basic

/-!
# Files as bytes

A file is a list of bytes. A write puts bytes at an offset; past the end of the file it
first fills the gap with zeros. What a sequence of writes leaves behind at a place is the
last byte written there, or what the file had. Writing a sequence again over a file on
which some of it, or part of one of its writes, has been carried out already gives what
one uninterrupted sequence gives.
-/

namespace Ferrite.Logical

/-- Bytes and where they go. -/
structure FileWrite where
  offset : Nat
  bytes : List UInt8

namespace FileWrite

/-- Carry out a write. Nothing happens if there is nothing to write. -/
def apply (file : List UInt8) (write : FileWrite) : List UInt8 :=
  if write.bytes = [] then file
  else
    file.take write.offset ++ List.replicate (write.offset - file.length) 0 ++ write.bytes ++
      file.drop (write.offset + write.bytes.length)

/-- Where a write ends. -/
def ending (write : FileWrite) : Nat := write.offset + write.bytes.length

/-- The place is written. -/
def Covers (write : FileWrite) (place : Nat) : Prop := write.offset ≤ place ∧ place < write.ending

private theorem length_apply {write : FileWrite} (some : write.bytes ≠ []) (file : List UInt8) :
    (write.apply file).length = max file.length write.ending := by
  rw [FileWrite.apply, if_neg some, ending]
  simp only [List.length_append, List.length_take, List.length_replicate, List.length_drop]
  omega

instance (write : FileWrite) (place : Nat) : Decidable (write.Covers place) := inferInstanceAs (Decidable (_ ∧ _))

/-- What a place holds after a write, reading zero where there is nothing. -/
theorem getD_apply {write : FileWrite} (some : write.bytes ≠ []) (file : List UInt8) (place : Nat) :
    (write.apply file).getD place 0 =
      if write.Covers place then write.bytes.getD (place - write.offset) 0 else file.getD place 0 := by
  have front : (file.take write.offset ++ List.replicate (write.offset - file.length) 0).length = write.offset := by
    simp only [List.length_append, List.length_take, List.length_replicate]
    omega
  rw [FileWrite.apply, if_neg some]
  simp only [List.getD_eq_getElem?_getD]
  by_cases before : place < write.offset
  · have uncovered : ¬write.Covers place := fun covers => Nat.not_lt.mpr covers.1 before
    rw [if_neg uncovered, List.append_assoc, List.getElem?_append_left (by rw [front]; exact before)]
    by_cases inFile : place < file.length
    · rw [List.getElem?_append_left (by rw [List.length_take]; omega), List.getElem?_take_of_lt before]
    · rw [List.getElem?_append_right (by rw [List.length_take]; omega), List.getElem?_eq_none (Nat.not_lt.mp inFile),
        List.getElem?_replicate]
      split <;> rfl
  · rw [List.append_assoc, List.getElem?_append_right (by rw [front]; omega), front]
    by_cases covers : write.Covers place
    · have inside : place - write.offset < write.bytes.length := by
        have ends := covers.2
        rw [ending] at ends
        omega
      rw [if_pos covers, List.getElem?_append_left inside]
    · have beyond : write.bytes.length ≤ place - write.offset := by
        rw [Covers, ending] at covers
        omega
      have there : write.offset + write.bytes.length + (place - write.offset - write.bytes.length) = place := by omega
      rw [if_neg covers, List.getElem?_append_right beyond, List.getElem?_drop, there]

end FileWrite

/-! ## Sequences of writes -/

namespace FileBytes

/-- Carry out writes in order. -/
def run (writes : List FileWrite) (file : List UInt8) : List UInt8 := writes.foldl FileWrite.apply file

variable {file other : List UInt8} {writes : List FileWrite}

theorem run_append (first second : List FileWrite) (file : List UInt8) :
    run (first ++ second) file = run second (run first file) := List.foldl_append

theorem length_le_run (writes : List FileWrite) (file : List UInt8) : file.length ≤ (run writes file).length := by
  induction writes generalizing file with
  | nil => exact Nat.le_refl _
  | cons write writes ih =>
    refine Nat.le_trans ?_ (ih _)
    by_cases nothing : write.bytes = []
    · have unchanged : write.apply file = file := by rw [FileWrite.apply, if_pos nothing]
      exact Nat.le_of_eq (congrArg List.length unchanged.symm)
    · rw [FileWrite.length_apply nothing]
      exact Nat.le_max_left _ _

/-- Where the last of some writes ends. -/
def extent (writes : List FileWrite) : Nat := (writes.map FileWrite.ending).foldr max 0

/-- Files that differ at most where the writes go, and are not longer than they make them. -/
structure Alike (writes : List FileWrite) (file other : List UInt8) : Prop where
  length : max other.length (extent writes) = max file.length (extent writes)
  places : ∀ place, (∀ write ∈ writes, ¬write.Covers place) → other.getD place 0 = file.getD place 0

private theorem ext_getD (length : file.length = other.length)
    (places : ∀ place, file.getD place 0 = other.getD place 0) :
    file = other := by
  refine List.ext_getElem length fun place inFile inOther => ?_
  simpa [List.getD_eq_getElem?_getD, inFile, inOther] using places place

/-- The writes settle all that such files differ in. -/
theorem Alike.run_eq (some : ∀ write ∈ writes, write.bytes ≠ []) (alike : Alike writes file other) :
    run writes other = run writes file := by
  induction writes generalizing file other with
  | nil =>
    have same : other.length = file.length := by simpa [extent] using alike.length
    exact ext_getD same fun place => alike.places place nofun
  | cons write writes ih =>
    have first : write.bytes ≠ [] := some write List.mem_cons_self
    refine ih (fun other member => some other (List.mem_cons_of_mem _ member)) ⟨?_, fun place uncovered => ?_⟩
    · have lengths : max other.length (max write.ending (extent writes)) =
          max file.length (max write.ending (extent writes)) := alike.length
      rw [FileWrite.length_apply first, FileWrite.length_apply first]
      omega
    · rw [FileWrite.getD_apply first, FileWrite.getD_apply first]
      by_cases covers : write.Covers place
      · rw [if_pos covers, if_pos covers]
      · rw [if_neg covers, if_neg covers]
        refine alike.places place fun other member => ?_
        obtain rfl | later := List.mem_cons.mp member
        · exact covers
        · exact uncovered other later

/-- A write that goes nowhere the other one does not. -/
def Within (part write : FileWrite) : Prop :=
  part.bytes = [] ∨ (write.offset ≤ part.offset ∧ part.ending ≤ write.ending)

theorem Within.refl (write : FileWrite) : Within write write := .inr ⟨Nat.le_refl _, Nat.le_refl _⟩

theorem Within.take (offset count : Nat) (bytes : List UInt8) : Within ⟨offset, bytes.take count⟩ ⟨offset, bytes⟩ := by
  refine .inr ⟨Nat.le_refl _, ?_⟩
  simp only [FileWrite.ending, List.length_take]
  omega

private theorem ending_le_extent {write : FileWrite} (member : write ∈ writes) : write.ending ≤ extent writes := by
  induction writes with
  | nil => cases member
  | cons first writes ih =>
    change write.ending ≤ max first.ending (extent writes)
    obtain rfl | later := List.mem_cons.mp member
    · exact Nat.le_max_left _ _
    · exact Nat.le_trans (ih later) (Nat.le_max_right _ _)

private theorem Alike.apply {part write : FileWrite} (alike : Alike writes file other) (member : write ∈ writes)
    (inside : Within part write) : Alike writes file (part.apply other) := by
  by_cases nothing : part.bytes = []
  · rw [FileWrite.apply, if_pos nothing]
    exact alike
  · obtain ⟨starts, ends⟩ := inside.resolve_left nothing
    refine ⟨?_, fun place uncovered => ?_⟩
    · have reached := ending_le_extent member
      have lengths := alike.length
      rw [FileWrite.length_apply nothing]
      omega
    · have outside : ¬part.Covers place := fun covers =>
        uncovered write member ⟨Nat.le_trans starts covers.1, Nat.lt_of_lt_of_le covers.2 ends⟩
      rw [FileWrite.getD_apply nothing, if_neg outside]
      exact alike.places place uncovered

/-- Parts of the writes, carried out before in any order and number, make no difference. -/
theorem run_run_of_within {parts : List FileWrite} (some : ∀ write ∈ writes, write.bytes ≠ [])
    (inside : ∀ part ∈ parts, ∃ write ∈ writes, Within part write) (file : List UInt8) :
    run writes (run parts file) = run writes file := by
  have alike : ∀ {parts : List FileWrite} {other : List UInt8}, (∀ part ∈ parts, ∃ write ∈ writes, Within part write) →
      Alike writes file other → Alike writes file (run parts other) := by
    intro parts
    induction parts with
    | nil => exact fun _ alike => alike
    | cons part parts ih =>
      intro other inside alike
      obtain ⟨write, member, within⟩ := inside part List.mem_cons_self
      exact ih (fun other later => inside other (List.mem_cons_of_mem _ later)) (alike.apply member within)
  exact (alike inside ⟨rfl, fun _ _ => rfl⟩).run_eq some

end FileBytes
end Ferrite.Logical
