import Ferrite.Logical.Frames
import Ferrite.Storage.Codec

/-!
# The journal, byte by byte

What `ferrite-storage/src/wal.rs` writes and what `replay` reads back. A record is a
payload behind its length and its checksum. Replay looks at one frame after another and
stops at the first that is incomplete, impossibly long, or does not match its checksum,
whatever the checksum computes.
-/

namespace Ferrite.Storage.Journal

open Logical Reader Codec

/-- As many bytes as a page has. -/
abbrev PageBytes := { bytes : Bytes // bytes.length = pageSize }

inductive Record where
  | pageImage (lsn : UInt64) (pageId : UInt32) (bytes : PageBytes)
  | commit (txn : UInt64)
  | abort (txn : UInt64)
  | checkpoint

def kindPageImage : Nat := 1
def kindCommit : Nat := 2
def kindAbort : Nat := 3
def kindCheckpoint : Nat := 4

/-! ## Appending -/

/-- The payload a record is logged with. -/
def payload : Record → Bytes
  | .pageImage lsn pageId bytes => toLe 1 kindPageImage ++ (toLe 8 lsn.toNat ++ (toLe 4 pageId.toNat ++ bytes.val))
  | .commit txn => toLe 1 kindCommit ++ toLe 8 txn.toNat
  | .abort txn => toLe 1 kindAbort ++ toLe 8 txn.toNat
  | .checkpoint => toLe 1 kindCheckpoint

section

variable (crc32c : Bytes → UInt32)

def framed (payload : Bytes) : Bytes := toLe 4 payload.length ++ (toLe 4 (crc32c payload).toNat ++ payload)

/-- The journal file after one more record. -/
def append (file : Bytes) (record : Record) : Bytes := file ++ framed crc32c (payload record)

/-! ## Replaying -/

/-- The page of an image, after its numbers. -/
def readImage (lsn pageId : Nat) : Decode (Option Record) := do
  let raw ← takeBytes pageSize
  if length : raw.length = pageSize then pure (some (.pageImage (.ofNat lsn) (.ofNat pageId) ⟨raw, length⟩))
  else fail fun _ => corrupt "unexpected end of buffer"

/-- A record of a kind this build knows. -/
def decodeRecord : Decode (Option Record) := do
  let kind ← scalar 1
  match kind with
  | 1 => do
    let lsn ← scalar 8
    let pageId ← scalar 4
    readImage lsn pageId
  | 2 => do
    let txn ← scalar 8
    pure (some (.commit (.ofNat txn)))
  | 3 => do
    let txn ← scalar 8
    pure (some (.abort (.ofNat txn)))
  | 4 => pure (some .checkpoint)
  | _ => pure none

def decode (payload : Bytes) : Except FerriteError (Option Record) := Prod.fst <$> decodeRecord.run ⟨payload⟩

/-- The next record. A header that is not all there is the end of the journal, not a tear. -/
def nextRecord (stream : Bytes) : Except FerriteError (Found UInt8 Record) :=
  if stream.length < 8 then .ok (.stop false)
  else
    let length := ofLe (stream.take 4)
    let expected := ofLe ((stream.drop 4).take 4)
    let body := stream.drop 8
    if length = 0 ∨ pageSize + 64 < length then .ok (.stop true)
    else if body.length < length then .ok (.stop true)
    else if (crc32c (body.take length)).toNat ≠ expected then .ok (.stop true)
    else
      match decode (body.take length) with
      | .error error => .error error
      | .ok none => .ok (.stop true)
      | .ok (some record) => .ok (.item record (body.drop length))

/-- Visit every intact record from the start, and say whether the last frame was torn. -/
def replay {β : Type} (visit : β → Record → Except FerriteError β) (state : β) (file : Bytes) :
    Except FerriteError (β × Bool) :=
  Frames.drain (nextRecord crc32c) visit (file.length + 1) state file

end

/-! ## A frame and what follows it -/

private theorem length_payload_pos (record : Record) : 0 < (payload record).length := by
  cases record <;> simp [payload]

private theorem length_payload_le (record : Record) : (payload record).length ≤ pageSize + 64 := by
  cases record with
  | pageImage lsn pageId bytes =>
    simp only [payload, List.length_append, length_toLe, bytes.property]
    omega
  | commit txn | abort txn | checkpoint =>
    simp only [payload, List.length_append, length_toLe, pageSize]
    omega

/-- The bytes of a page image, made into a record. -/
theorem reads_image (lsn : UInt64) (pageId : UInt32) (bytes : PageBytes) :
    Reads (readImage lsn.toNat pageId.toNat) bytes.val (some (.pageImage lsn pageId bytes)) := by
  intro more
  have taken : Reads (takeBytes pageSize) bytes.val bytes.val := reads_take bytes.property
  rw [readImage, run_bind_ok (taken more), dif_pos bytes.property, UInt64.ofNat_toNat, UInt32.ofNat_toNat]
  rfl

private theorem reads_decodeRecord (record : Record) : Reads decodeRecord (payload record) (some record) := by
  cases record with
  | pageImage lsn pageId bytes =>
    refine (reads_scalar (by decide)).bind ((reads_scalar lsn.toNat_lt).bind ((reads_scalar pageId.toNat_lt).bind ?_))
    exact reads_image lsn pageId bytes
  | commit txn =>
    have made : some (Record.commit (.ofNat txn.toNat)) = some (Record.commit txn) := by rw [UInt64.ofNat_toNat]
    exact made ▸ (reads_scalar (by decide)).bind (reads_scalar txn.toNat_lt).map
  | abort txn =>
    have made : some (Record.abort (.ofNat txn.toNat)) = some (Record.abort txn) := by rw [UInt64.ofNat_toNat]
    exact made ▸ (reads_scalar (by decide)).bind (reads_scalar txn.toNat_lt).map
  | checkpoint => exact (reads_scalar (by decide)).bind (reads_pure _)

section

variable {crc32c : Bytes → UInt32}

private theorem decode_payload (record : Record) : decode (payload record) = .ok (some record) := by
  have read := reads_decodeRecord record []
  rw [List.append_nil] at read
  rw [decode, read]
  rfl

private theorem length_framed (payload : Bytes) : (framed crc32c payload).length = 8 + payload.length := by
  simp only [framed, List.length_append, length_toLe]
  omega

/-- What a look at a stream sees of the frame in front: its length, its checksum and as
much of its payload as there is. -/
structure Heads (stream body : Bytes) (length checksum : Nat) : Prop where
  long : 8 ≤ stream.length
  length : ofLe (stream.take 4) = length
  checksum : ofLe ((stream.drop 4).take 4) = checksum
  body : stream.drop 8 = body

private theorem heads_append {body rest : Bytes} (size : body.length < 2 ^ 32) :
    Heads (toLe 4 body.length ++ (toLe 4 (crc32c body).toNat ++ rest)) rest body.length (crc32c body).toNat where
  long := by
    simp only [List.length_append, length_toLe]
    omega
  length := by rw [List.take_left' (length_toLe 4 _), ofLe_toLe_of_lt size]
  checksum := by
    rw [List.drop_left' (length_toLe 4 _), List.take_left' (length_toLe 4 _), ofLe_toLe_of_lt (crc32c body).toNat_lt]
  body := by
    rw [← List.drop_drop (i := 4) (j := 4), List.drop_left' (length_toLe 4 _), List.drop_left' (length_toLe 4 _)]

private theorem size_payload (record : Record) : (payload record).length < 2 ^ 32 :=
  Nat.lt_of_le_of_lt (length_payload_le record) (by decide)

/-- A look at a stream whose header announces the payload of a record. -/
theorem nextRecord_of_heads {record : Record} {stream body : Bytes}
    (heads : Heads stream body (payload record).length (crc32c (payload record)).toNat) :
    nextRecord crc32c stream =
      if body.length < (payload record).length then .ok (.stop true)
      else if (crc32c (body.take (payload record).length)).toNat ≠ (crc32c (payload record)).toNat then .ok (.stop true)
      else
        match decode (body.take (payload record).length) with
        | .error error => .error error
        | .ok none => .ok (.stop true)
        | .ok (some record') => .ok (.item record' (body.drop (payload record).length)) := by
  have possible : ¬((payload record).length = 0 ∨ pageSize + 64 < (payload record).length) := by
    have positive := length_payload_pos record
    have bounded := length_payload_le record
    omega
  have long := heads.long
  rw [nextRecord, if_neg (by omega), heads.length, heads.checksum, heads.body]
  dsimp only
  rw [if_neg possible]

private theorem nextRecord_whole (record : Record) (more : Bytes) :
    nextRecord crc32c (framed crc32c (payload record) ++ more) = .ok (.item record more) := by
  have heads : Heads (framed crc32c (payload record) ++ more) (payload record ++ more) (payload record).length
      (crc32c (payload record)).toNat := by
    rw [framed, List.append_assoc, List.append_assoc]
    exact heads_append (size_payload record)
  have enough : ¬(payload record ++ more).length < (payload record).length := by
    rw [List.length_append]
    omega
  rw [nextRecord_of_heads heads, if_neg enough, List.take_left, List.drop_left, if_neg (by simp), decode_payload]

/-- A frame that is cut in its header is taken for the end, one that is cut in its payload
for a tear. -/
theorem nextRecord_cut {record : Record} {part : Bytes} (cut : part <+: framed crc32c (payload record))
    (proper : part ≠ framed crc32c (payload record)) :
    nextRecord crc32c part = .ok (.stop (decide (8 ≤ part.length))) := by
  have shorter : part.length < 8 + (payload record).length := by
    rw [← length_framed]
    exact Nat.lt_of_le_of_ne cut.length_le fun same => proper (cut.eq_of_length same)
  by_cases header : part.length < 8
  · rw [nextRecord, if_pos header, decide_eq_false (by omega)]
  · -- the header is whole, and what is missing is missing from the payload
    obtain ⟨body, rfl⟩ : ∃ body, part = toLe 4 (payload record).length ++ (toLe 4 (crc32c (payload record)).toNat ++ body) := by
      obtain ⟨more, same⟩ := cut
      refine ⟨part.drop 8, ?_⟩
      have front : part.take 8 = toLe 4 (payload record).length ++ toLe 4 (crc32c (payload record)).toNat := by
        have taken := congrArg (List.take 8) same
        rw [List.take_append_of_le_length (by omega), framed, ← List.append_assoc] at taken
        rw [taken, List.take_left' (by simp)]
      rw [← List.append_assoc, ← front, List.take_append_drop]
    have few : body.length < (payload record).length := by
      simp only [List.length_append, length_toLe] at shorter
      omega
    rw [nextRecord_of_heads (heads_append (size_payload record)), if_pos few, decide_eq_true (by omega)]

theorem recognises_framed : Frames.Recognises (nextRecord crc32c) fun record => framed crc32c (payload record) where
  nonempty record := by
    rw [← List.length_pos_iff, length_framed]
    omega
  whole := nextRecord_whole
  empty := ⟨false, rfl⟩
  cut record part cut proper := ⟨_, nextRecord_cut cut proper⟩

/-! ## Cut journals -/

/-- Appending records to an empty journal writes one frame after the other. -/
theorem foldl_append (records : List Record) (file : Bytes) :
    records.foldl (append crc32c) file = file ++ records.flatMap fun record => framed crc32c (payload record) := by
  induction records generalizing file with
  | nil => simp
  | cons record records ih => rw [List.foldl_cons, ih, append, List.append_assoc, List.flatMap_cons]

end

/-- Replay over the first bytes of a journal visits the records whose frames end within
them, in order, and fails only if the visitor does. -/
theorem replay_cut_journal (crc32c : Bytes → UInt32) {β : Type} (visit : β → Record → Except FerriteError β)
    (state : β) (records : List Record) (length : Nat) :
    ∃ count torn, replay crc32c visit state ((records.foldl (append crc32c) []).take length) =
        (fun state => (state, torn)) <$> (records.take count).foldlM visit state ∧
      ∀ index, index < records.length →
        (index < count ↔ ((records.take (index + 1)).foldl (append crc32c) []).length ≤ length) := by
  obtain ⟨count, taken, exact⟩ := Frames.within_eq_take (fun record => framed crc32c (payload record)) length records
  have recognises : Frames.Recognises (nextRecord crc32c) fun record => framed crc32c (payload record) :=
    recognises_framed
  obtain ⟨torn, drained⟩ := @Frames.drain_take _ _ _ _ _ _ visit recognises _ _ records state
    (Nat.lt_succ_self ((records.flatMap fun record => framed crc32c (payload record)).take length).length)
  refine ⟨count, torn, ?_, fun index bound => ?_⟩
  · rw [foldl_append, List.nil_append, replay, drained, taken]
  · rw [foldl_append, List.nil_append]
    exact exact index bound

end Ferrite.Storage.Journal
