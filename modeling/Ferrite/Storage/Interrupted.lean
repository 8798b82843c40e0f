import Ferrite.Logical.FileBytes
import Ferrite.Storage.Journal
import Ferrite.Storage.Metadata
import Mathlib.Logic.Relation

/-!
# Opening a database, byte by byte

`Pager::open` with `recover` (`ferrite-storage/src/pager.rs`): the journal's page images
are written into the data file in place, the file is synced, the journal is emptied, and
the meta page is read. A process that dies on the way leaves the files as the operations
so far made them, with a part of the page it was writing. The checksum and the decoder of
the meta page are arbitrary.
-/

namespace Ferrite.Storage

open Logical Journal FileBytes Journal.Record

/-- The bytes of the data file and of the journal. -/
structure Files where
  data : Bytes
  journal : Bytes

/-- What recovery counts. -/
structure RecoveryStats where
  pages : Nat
  commits : Nat
  aborts : Nat
  maxLsn : Nat

/-- Where the image of a page goes. -/
def Journal.Record.fileWrite : Journal.Record → Option FileWrite
  | .pageImage _ pageId bytes => some ⟨pageId.toNat * pageSize, bytes.val⟩
  | _ => none

/-- What recovery does with a record. -/
def recoverRecord (state : Bytes × RecoveryStats) (record : Journal.Record) : Bytes × RecoveryStats :=
  match record with
  | .pageImage lsn pageId bytes =>
    (FileWrite.apply state.1 ⟨pageId.toNat * pageSize, bytes.val⟩,
      { state.2 with pages := state.2.pages + 1, maxLsn := max state.2.maxLsn lsn.toNat })
  | .commit _ => (state.1, { state.2 with commits := state.2.commits + 1 })
  | .abort _ => (state.1, { state.2 with aborts := state.2.aborts + 1 })
  | .checkpoint => state

section

variable (crc32c : Bytes → UInt32) (encodedFresh : Except FerriteError Bytes) (decodeMeta : Bytes → Except FerriteError Meta)

/-- Replay the journal into the data file. The flag says whether its tail was torn. -/
def recoverFiles (files : Files) : Except FerriteError ((Bytes × RecoveryStats) × Bool) :=
  replay crc32c (fun state record => .ok (recoverRecord state record)) (files.data, ⟨0, 0, 0, 0⟩) files.journal

/-- An open database, as far as recovery decides it. -/
structure Opened where
  files : Files
  content : Meta
  nextLsn : Nat

/-- The meta page, if the file is long enough to hold one. -/
def loadMeta (data : Bytes) : Except FerriteError Meta :=
  if data.length < pageSize then .error (.storage "page 0 is past the end of the data file")
  else decodeMeta (data.take pageSize)

/-- Open the files. A new data file gets a fresh meta page. -/
def openBytes (files : Files) : Except FerriteError Opened := do
  let recovered ← recoverFiles crc32c files
  let data := recovered.1.1
  let nextLsn := max 1 (recovered.1.2.maxLsn + 1)
  if data.length = 0 then do
    let page ← encodedFresh
    pure ⟨⟨FileWrite.apply data ⟨0, page⟩, []⟩, .fresh, nextLsn⟩
  else do
    let content ← loadMeta decodeMeta data
    pure ⟨⟨data, []⟩, content, nextLsn⟩

/-! ## Stopping on the way -/

/-- One file operation of opening a data file that is not empty. -/
inductive OpenOperation where
  | writePage (write : FileWrite)
  | syncData
  | openJournal
  | setLenZero
  | rewindJournal
  | syncJournal
  | statData
  | readMeta

def OpenOperation.apply (files : Files) : OpenOperation → Files
  | .writePage write => { files with data := FileWrite.apply files.data write }
  | .setLenZero => { files with journal := [] }
  | .syncData | .openJournal | .rewindJournal | .syncJournal | .statData | .readMeta => files

/-- What may be left of an operation that was not carried out to its end. -/
inductive Stopped (files : Files) : Option OpenOperation → Files → Prop where
  | notStarted (next : Option OpenOperation) : Stopped files next files
  | midPage (offset : Nat) (bytes : Bytes) (count : Nat) :
      Stopped files (some (.writePage ⟨offset, bytes⟩)) { files with data := FileWrite.apply files.data ⟨offset, bytes.take count⟩ }

/-- The operations of an open that recovers some records. -/
def openOperations (records : List Journal.Record) : List OpenOperation :=
  let writes := records.filterMap Record.fileWrite
  writes.map .writePage ++ (if writes = [] then [] else [.syncData]) ++
    [.openJournal, .setLenZero, .rewindJournal, .syncJournal, .statData, .readMeta]

/-- A recovery that was interrupted: some of its operations, and perhaps part of the next. -/
def Interrupted (before after : Files) : Prop :=
  ∃ records torn done, replay crc32c Frames.collect [] before.journal = .ok (records, torn) ∧
    Stopped ((openOperations records).take done |>.foldl OpenOperation.apply before)
      (openOperations records)[done]? after

end

/-! ## What a recovery comes to -/

/-- The writes some records ask for. -/
abbrev fileWrites (records : List Journal.Record) : List FileWrite := records.filterMap Record.fileWrite

private theorem bytes_ne_nil_of_mem_fileWrites {records : List Journal.Record} {write : FileWrite}
    (member : write ∈ fileWrites records) : write.bytes ≠ [] := by
  obtain ⟨record, _, made⟩ := List.mem_filterMap.mp member
  cases record with
  | pageImage lsn pageId bytes =>
    cases made
    intro empty
    exact absurd (bytes.property.symm.trans (congrArg List.length empty)) (by decide)
  | commit txn | abort txn | checkpoint => cases made

private theorem data_foldl_recoverRecord (records : List Journal.Record) (state : Bytes × RecoveryStats) :
    (records.foldl recoverRecord state).1 = run (fileWrites records) state.1 := by
  induction records generalizing state with
  | nil => rfl
  | cons record records ih =>
    rw [List.foldl_cons, ih]
    cases record <;> rfl

section

variable {crc32c : Bytes → UInt32} {encodedFresh : Except FerriteError Bytes}
  {decodeMeta : Bytes → Except FerriteError Meta} {files : Files}

/-- What a recovery makes of the files: the data it is heading for, if the journal can be
replayed at all. -/
structure HeadsFor (crc32c : Bytes → UInt32) (target : Bytes) (files : Files) : Prop where
  nonempty : files.data ≠ []
  replays : ∃ records torn, replay crc32c Frames.collect [] files.journal = .ok (records, torn) ∧
    run (fileWrites records) files.data = target

/-- Opening files with data in them depends on what they are heading for, and leaves that. -/
theorem HeadsFor.openBytes_eq {target : Bytes} (heads : HeadsFor crc32c target files) :
    ∃ nextLsn, openBytes crc32c encodedFresh decodeMeta files =
      (fun content => ⟨⟨target, []⟩, content, nextLsn⟩) <$> loadMeta decodeMeta target := by
  obtain ⟨records, torn, replayed, reached⟩ := heads.replays
  have recovered : recoverFiles crc32c files =
      .ok (records.foldl recoverRecord (files.data, ⟨0, 0, 0, 0⟩), torn) := by
    have drained := Frames.drain_pure (nextRecord crc32c) recoverRecord (files.journal.length + 1) []
      (files.data, ⟨0, 0, 0, 0⟩) files.journal
    rw [replay] at replayed
    rw [replayed] at drained
    exact drained
  have data : (records.foldl recoverRecord (files.data, ⟨0, 0, 0, 0⟩)).1 = target := by
    rw [data_foldl_recoverRecord, reached]
  have some : ¬target.length = 0 := by
    have longer := length_le_run (fileWrites records) files.data
    have before := List.length_pos_iff.mpr heads.nonempty
    rw [reached] at longer
    omega
  refine ⟨max 1 ((records.foldl recoverRecord (files.data, ⟨0, 0, 0, 0⟩)).2.maxLsn + 1), ?_⟩
  rw [openBytes, recovered]
  change (if (records.foldl recoverRecord (files.data, ⟨0, 0, 0, 0⟩)).1.length = 0 then _ else _) = _
  rw [data, if_neg some]
  cases loadMeta decodeMeta target <;> rfl

private theorem headsFor_of_opens {opened : Opened} (nonempty : files.data ≠ [])
    (opens : openBytes crc32c encodedFresh decodeMeta files = .ok opened) : ∃ target, HeadsFor crc32c target files := by
  cases replayed : replay crc32c Frames.collect [] files.journal with
  | ok ended => exact ⟨_, nonempty, ended.1, ended.2, replayed, rfl⟩
  | error error =>
    have drained := Frames.drain_pure (nextRecord crc32c) recoverRecord (files.journal.length + 1) []
      (files.data, ⟨0, 0, 0, 0⟩) files.journal
    rw [replay] at replayed
    rw [replayed] at drained
    have failed : recoverFiles crc32c files = .error error := drained
    rw [openBytes, failed] at opens
    cases opens

/-! ## Interruptions -/

private theorem foldl_writePages (writes : List FileWrite) (files : Files) :
    (writes.map OpenOperation.writePage).foldl OpenOperation.apply files =
      { files with data := run writes files.data } := by
  induction writes generalizing files with
  | nil => rfl
  | cons write writes ih => rw [List.map_cons, List.foldl_cons, ih]; rfl

/-- After the pages, nothing more is written to the data file; the journal is kept or emptied. -/
theorem foldl_closing {operations : List OpenOperation} (noPage : ∀ write, .writePage write ∉ operations)
    (files : Files) : (operations.foldl OpenOperation.apply files).data = files.data ∧
      ((operations.foldl OpenOperation.apply files).journal = files.journal ∨
        (operations.foldl OpenOperation.apply files).journal = []) := by
  induction operations generalizing files with
  | nil => exact ⟨rfl, .inl rfl⟩
  | cons operation operations ih =>
    have later := ih (fun write member => noPage write (List.mem_cons_of_mem _ member))
      (OpenOperation.apply files operation)
    cases operation with
    | writePage write => exact absurd List.mem_cons_self (noPage write)
    | setLenZero => exact ⟨later.1, .inr (later.2.elim id id)⟩
    | syncData | openJournal | rewindJournal | syncJournal | statData | readMeta => exact later

/-- The operations after the pages have been written. -/
def closingOperations (writes : List FileWrite) : List OpenOperation :=
  (if writes = [] then [] else [.syncData]) ++
    [.openJournal, .setLenZero, .rewindJournal, .syncJournal, .statData, .readMeta]

private theorem openOperations_eq (records : List Journal.Record) : openOperations records =
      (fileWrites records).map .writePage ++ closingOperations (fileWrites records) := by
  rw [openOperations, closingOperations, List.append_assoc]

private theorem writePage_notMem_closing (writes : List FileWrite) (write : FileWrite) :
    .writePage write ∉ closingOperations writes := by
  rw [closingOperations]
  split <;> simp

/-- Only a page can be left half written. -/
theorem Stopped.eq_of_ne {files after : Files} {next : Option OpenOperation} (stopped : Stopped files next after)
    (other : ∀ write, next ≠ some (.writePage write)) : after = files := by
  cases stopped with
  | notStarted => rfl
  | midPage offset bytes count => exact absurd rfl (other _)

/-- A recovery stopped while it writes pages has written parts of them; later it has
written them all. -/
theorem interrupted_cases {before after : Files} (interrupted : Interrupted crc32c before after) :
    ∃ records torn, replay crc32c Frames.collect [] before.journal = .ok (records, torn) ∧
      ((∃ parts, (∀ part ∈ parts, ∃ write ∈ fileWrites records, Within part write) ∧
          after = { before with data := run parts before.data }) ∨
        (after = ⟨run (fileWrites records) before.data, []⟩)) := by
  obtain ⟨records, torn, done, replayed, stopped⟩ := interrupted
  refine ⟨records, torn, replayed, ?_⟩
  rw [openOperations_eq] at stopped
  have whole : ∀ part ∈ fileWrites records, ∃ write ∈ fileWrites records, Within part write :=
    fun part member => ⟨part, member, .refl part⟩
  by_cases midway : done < (fileWrites records).length
  · left
    have soFar : ((fileWrites records).map OpenOperation.writePage ++ closingOperations (fileWrites records)).take done =
        ((fileWrites records).take done).map .writePage := by
      rw [List.take_append_of_le_length (by rw [List.length_map]; omega), List.map_take]
    rw [soFar, foldl_writePages, List.getElem?_append_left (by rw [List.length_map]; exact midway),
      List.getElem?_map, List.getElem?_eq_getElem midway] at stopped
    generalize next : (fileWrites records)[done] = write at stopped
    have member : write ∈ fileWrites records := next ▸ List.getElem_mem midway
    have taken : ∀ part ∈ (fileWrites records).take done, ∃ write ∈ fileWrites records, Within part write :=
      fun part early => whole part (List.mem_of_mem_take early)
    cases stopped with
    | notStarted => exact ⟨(fileWrites records).take done, taken, rfl⟩
    | midPage offset bytes count =>
      refine ⟨(fileWrites records).take done ++ [⟨offset, bytes.take count⟩], fun part early => ?_, ?_⟩
      · obtain early | last := List.mem_append.mp early
        · exact taken part early
        · rw [List.mem_singleton.mp last]
          exact ⟨_, member, .take offset count bytes⟩
      · rw [run_append]
        rfl
  · have enough : (fileWrites records).length ≤ done := Nat.not_lt.mp midway
    rw [List.take_append, List.take_of_length_le (by rw [List.length_map]; exact enough), List.foldl_append,
      foldl_writePages, List.length_map, List.getElem?_append_right (by rw [List.length_map]; exact enough)] at stopped
    have noPage : ∀ write, .writePage write ∉
        (closingOperations (fileWrites records)).take (done - (fileWrites records).length) :=
      fun write member => writePage_notMem_closing _ write (List.mem_of_mem_take member)
    obtain ⟨sameData, journal⟩ := foldl_closing noPage { before with data := run (fileWrites records) before.data }
    generalize reached : ((closingOperations (fileWrites records)).take _).foldl OpenOperation.apply
      { before with data := run (fileWrites records) before.data } = now at stopped sameData journal
    have same : after = now := stopped.eq_of_ne fun write next =>
      writePage_notMem_closing _ write (List.mem_of_getElem? next)
    obtain ⟨data, left⟩ := now
    cases same
    cases sameData
    obtain kept | emptied := journal
    · cases kept
      exact .inl ⟨fileWrites records, whole, rfl⟩
    · cases emptied
      exact .inr rfl

/-- An interrupted recovery is still heading for the same data. -/
theorem HeadsFor.interrupted {target : Bytes} {before after : Files} (heads : HeadsFor crc32c target before)
    (interrupted : Interrupted crc32c before after) : HeadsFor crc32c target after := by
  obtain ⟨records, torn, replayed, reached⟩ := heads.replays
  obtain ⟨others, otherTorn, replayedAgain, outcome⟩ := interrupted_cases interrupted
  cases replayed.symm.trans replayedAgain
  have grows : ∀ writes, run writes before.data ≠ [] := fun writes => by
    have longer := length_le_run writes before.data
    have some := List.length_pos_iff.mpr heads.nonempty
    exact List.length_pos_iff.mp (by omega)
  obtain ⟨parts, inside, rfl⟩ | rfl := outcome
  · refine ⟨grows parts, records, torn, replayed, ?_⟩
    rw [run_run_of_within (fun write => bytes_ne_nil_of_mem_fileWrites) inside, reached]
  · exact ⟨grows _, [], false, rfl, reached⟩

/-! ## Unreadable records -/

/-- What is no record to replay: there is too little of it, its length is impossible, it is not
what its checksum says, or its kind is not known. -/
def Unreadable (crc32c : Bytes → UInt32) (stream : Bytes) : Prop :=
  let length := ofLe (stream.take 4)
  let payload := (stream.drop 8).take length
  stream.length < 8 + length ∨ length = 0 ∨ pageSize + 64 < length ∨
    (crc32c payload).toNat ≠ ofLe ((stream.drop 4).take 4) ∨ decode payload = .ok none

private theorem Unreadable.stops {stream : Bytes} (unreadable : Unreadable crc32c stream) :
    ∃ torn, nextRecord crc32c stream = .ok (.stop torn) := by
  by_cases header : stream.length < 8
  · exact ⟨false, if_pos header⟩
  · refine ⟨true, (if_neg header).trans ?_⟩
    rcases unreadable with short | zero | long | differs | unknown
    · have few : (stream.drop 8).length < ofLe (stream.take 4) := by
        rw [List.length_drop]
        omega
      simp only [few, if_true, ite_self]
    · simp [zero]
    · simp [long]
    · simp [differs]
    · simp [unknown]

/-- Replay visits the records up to where a look stops. -/
theorem replay_until_stop {rest : Bytes} {torn : Bool} (stops : nextRecord crc32c rest = .ok (.stop torn)) {β : Type}
    (visit : β → Journal.Record → Except FerriteError β) (state : β) (records : List Journal.Record) :
    replay crc32c visit state (records.foldl (append crc32c) [] ++ rest) =
      (fun state => (state, torn)) <$> records.foldlM visit state := by
  rw [replay, foldl_append, List.nil_append, Frames.drain_until_stop recognises_framed stops _ (Nat.lt_succ_self _)]

/-- Recovery takes in the records up to where a look stops. -/
theorem recoverFiles_until_stop {rest : Bytes} {torn : Bool} (stops : nextRecord crc32c rest = .ok (.stop torn))
    (data : Bytes) (records : List Journal.Record) :
    recoverFiles crc32c ⟨data, records.foldl (append crc32c) [] ++ rest⟩ =
      .ok (records.foldl recoverRecord (data, ⟨0, 0, 0, 0⟩), torn) := by
  rw [recoverFiles, replay_until_stop stops]
  exact congrArg _ (List.foldlM_pure ..)

end

/-- However often opening is interrupted, an open that is not leaves the data, the meta
page and the empty journal that the first one would have left. -/
theorem recovery_may_be_interrupted (crc32c : Bytes → UInt32) (encodedFresh : Except FerriteError Bytes)
    (decodeMeta : Bytes → Except FerriteError Meta) {files later : Files} {opened : Opened}
    (nonempty : files.data ≠ []) (opens : openBytes crc32c encodedFresh decodeMeta files = .ok opened)
    (interrupted : Relation.ReflTransGen (Interrupted crc32c) files later) :
    ∃ reopened, openBytes crc32c encodedFresh decodeMeta later = .ok reopened ∧
      reopened.files = opened.files ∧ reopened.content = opened.content ∧ opened.files.journal = [] := by
  obtain ⟨target, heads⟩ := headsFor_of_opens nonempty opens
  have headsLater : HeadsFor crc32c target later := by
    induction interrupted with
    | refl => exact heads
    | tail _ step ih => exact ih.interrupted step
  obtain ⟨nextLsn, first⟩ := @HeadsFor.openBytes_eq crc32c encodedFresh decodeMeta files target heads
  obtain ⟨laterLsn, second⟩ := @HeadsFor.openBytes_eq crc32c encodedFresh decodeMeta later target headsLater
  rw [first] at opens
  cases loaded : loadMeta decodeMeta target with
  | error error =>
    rw [loaded] at opens
    cases opens
  | ok content =>
    rw [loaded] at opens second
    cases opens
    exact ⟨_, second, rfl, rfl, rfl⟩

/-- Recovery of a new meta page stops after a hundred of its bytes; the next one writes the whole
page. -/
theorem torn_meta_page_is_written_again :
    let page : PageBytes := ⟨List.replicate pageSize 7, List.length_replicate⟩
    let journal := [pageImage 1 0 page, .commit 2].foldl (append fun _ => 0) []
    ∃ reopened, openBytes (fun _ => 0) (.ok []) (fun _ => .ok .fresh)
        ⟨page.val.take 100 ++ (List.replicate pageSize 0).drop 100, journal⟩ = .ok reopened ∧
      reopened.files = ⟨page.val, []⟩ := by
  -- for any page over any old one, so that neither is evaluated
  have ofPages : ∀ (page : PageBytes) (old : Bytes), old.length = pageSize → ∃ reopened,
      openBytes (fun _ => 0) (.ok []) (fun _ => .ok .fresh) ⟨page.val.take 100 ++ old.drop 100,
        [pageImage 1 0 page, .commit 2].foldl (append fun _ => 0) []⟩ = .ok reopened ∧
      reopened.files = ⟨page.val, []⟩ := by
    rintro ⟨page, isPage⟩ old isOld
    generalize written : [pageImage 1 0 ⟨page, isPage⟩, .commit 2] = records
    have front (bytes : Bytes) (some : 0 < bytes.length) :
        FileWrite.apply old ⟨0, bytes⟩ = bytes ++ old.drop bytes.length := by
      simp [FileWrite.apply, List.ne_nil_of_length_pos some]
    have ends : nextRecord (fun _ => 0) [] = .ok (.stop false) := rfl
    have notEmpty : page.length ≠ 0 := by rw [isPage]; decide
    have long : ¬page.length < pageSize := by omega
    have opens : openBytes (fun _ => 0) (.ok []) (fun _ => .ok .fresh) ⟨old, records.foldl (append fun _ => 0) []⟩ =
        .ok ⟨⟨page, []⟩, .fresh, 2⟩ := by
      have recovered := recoverFiles_until_stop ends old records
      have whole : FileWrite.apply old ⟨0, page⟩ = page := by
        rw [front page (Nat.pos_of_ne_zero notEmpty), isPage, ← isOld, List.drop_length, List.append_nil]
      have first : records.foldl recoverRecord (old, ⟨0, 0, 0, 0⟩) = (page, ⟨1, 1, 0, 1⟩) := by
        rw [← written]
        exact congrArg (·, _) whole
      rw [List.append_nil, first] at recovered
      rw [openBytes, recovered]
      change (if page.length = 0 then _ else _) = _
      rw [if_neg notEmpty, loadMeta, if_neg long]
      rfl
    have torn : Interrupted (fun _ => 0) ⟨old, records.foldl (append fun _ => 0) []⟩
        ⟨page.take 100 ++ old.drop 100, records.foldl (append fun _ => 0) []⟩ := by
      have replayed := replay_until_stop ends Frames.collect [] records
      rw [List.append_nil] at replayed
      refine ⟨records, false, 0, replayed.trans (by rw [← written]; rfl), ?_⟩
      have cut : (page.take 100).length = 100 := by rw [List.length_take, isPage]; rfl
      have stopped := @Stopped.midPage ⟨old, records.foldl (append fun _ => 0) []⟩ 0 page 100
      rw [front _ (by omega), cut] at stopped
      rw [← written] at stopped ⊢
      exact stopped
    obtain ⟨reopened, again, sameFiles, -⟩ := recovery_may_be_interrupted (fun _ => 0) (.ok [])
      (fun _ => .ok .fresh) (fun empty => notEmpty (isPage.trans (isOld.symm.trans (congrArg List.length empty)))) opens
      (.single torn)
    exact ⟨reopened, again, sameFiles⟩
  exact ofPages _ _ List.length_replicate

/-- A database opens as if its journal had ended before the first record that cannot be read,
whatever comes after. -/
theorem unreadable_record_ends_recovery (crc32c : Bytes → UInt32) (encodedFresh : Except FerriteError Bytes)
    (decodeMeta : Bytes → Except FerriteError Meta) (data : Bytes) (records : List Journal.Record) {rest : Bytes}
    (unreadable : Unreadable crc32c rest) :
    openBytes crc32c encodedFresh decodeMeta ⟨data, records.foldl (append crc32c) [] ++ rest⟩ =
      openBytes crc32c encodedFresh decodeMeta ⟨data, records.foldl (append crc32c) []⟩ := by
  obtain ⟨torn, stops⟩ := unreadable.stops
  have ends := recoverFiles_until_stop (rfl : nextRecord crc32c [] = .ok (.stop false)) data records
  rw [List.append_nil] at ends
  rw [openBytes, openBytes, ends, recoverFiles_until_stop stops]
  rfl

theorem wrong_checksum_ends_recovery :
    openBytes (fun _ => 0) (.ok []) (fun _ => .ok .fresh)
        ⟨[], [commit 7].foldl (append fun _ => 0) [] ++ [1, 0, 0, 0, 5, 0, 0, 0, 4]⟩ =
      openBytes (fun _ => 0) (.ok []) (fun _ => .ok .fresh) ⟨[], [commit 7].foldl (append fun _ => 0) []⟩ :=
  unreadable_record_ends_recovery _ _ _ _ [.commit 7] (.inr (.inr (.inr (.inl (by decide)))))

end Ferrite.Storage
