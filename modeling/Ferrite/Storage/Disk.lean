import Ferrite.Storage.Metadata

/-!
# The two files

What the data file and the journal hold (`ferrite-storage/src/wal.rs` and the file
side of `pager.rs`), and the file operations as events. A page is written as a whole,
a journal record as a frame whose length decides what a failed append leaves behind;
replay reads whole frames and stops at the first one that was cut.
-/

namespace Ferrite.Storage

/-- A page as it stands on disk, with the sequence number in its header. -/
structure Image where
  lsn : Nat
  page : Page

/-- A journal record. -/
inductive Record where
  | pageImage (id : PageId) (image : Image)
  | commit (txn : TxnId)
  | abort (txn : TxnId)
  | checkpoint

/-- Bytes of the record's frame: length, checksum, kind byte and contents. -/
def Record.frameLength : Record → Nat
  | .pageImage _ _ => 8 + (1 + 8 + 4 + pageSize)
  | .commit _ => 8 + (1 + 8)
  | .abort _ => 8 + (1 + 8)
  | .checkpoint => 8 + 1

/-- A stretch of the journal: a whole record, or what an append that failed midway
left behind. -/
inductive JournalItem where
  | whole (record : Record)
  | cut

/-- The data file: its length in pages and the pages that hold one. -/
structure DataFile where
  pages : PageId → Option Image
  length : Nat

/-- Both files. -/
structure Disk where
  file : DataFile
  journal : List JournalItem

namespace DataFile

def empty : DataFile := ⟨fun _ => none, 0⟩

/-- Write a page at its place. -/
def write (file : DataFile) (id : PageId) (image : Option Image) : DataFile where
  pages := fun other => if other = id then image else file.pages other
  length := max file.length (id.val + 1)

@[simp] theorem pages_write (file : DataFile) (id other : PageId) (image : Option Image) :
    (file.write id image).pages other = if other = id then image else file.pages other := rfl

end DataFile

/-- The files of a database that does not exist yet. -/
def Disk.empty : Disk := ⟨.empty, []⟩

/-- Records up to the first cut one. -/
def intactRecords : List JournalItem → List Record
  | .whole record :: rest => record :: intactRecords rest
  | _ => []

@[simp] theorem intactRecords_map_whole (records : List Record) : intactRecords (records.map .whole) = records := by
  induction records with
  | nil => rfl
  | cons record rest ih => simp [intactRecords, ih]

/-- Put a record's page image into the data file. -/
def applyRecord (file : DataFile) : Record → DataFile
  | .pageImage id image => file.write id (some image)
  | _ => file

/-- Replay the journal into the data file. -/
def Disk.recover (disk : Disk) : DataFile := (intactRecords disk.journal).foldl applyRecord disk.file

/-- The largest sequence number among the replayed images. -/
def maxLsn (records : List Record) : Nat := records.foldl (fun bound record =>
    match record with
    | .pageImage _ image => max bound image.lsn
    | _ => bound) 0

/-- One file operation, or the dirtying of a cached page. `evicted` is the write of
an evicted page, `written` any other write to the data file. -/
inductive Event where
  | dirtied (id : PageId)
  | appended (record : Record)
  | cutAppend
  | journalSynced
  | truncated
  | evicted (id : PageId) (image : Image)
  | written (id : PageId) (image : Option Image)
  | fileSynced

/-- Appending a page image. -/
def Event.isImage : Event → Bool
  | .appended (.pageImage _ _) => true
  | _ => false

/-- What an event does to the files. -/
def Disk.apply (disk : Disk) : Event → Disk
  | .appended record => { disk with journal := disk.journal ++ [.whole record] }
  | .cutAppend => { disk with journal := disk.journal ++ [.cut] }
  | .truncated => { disk with journal := [] }
  | .evicted id image => { disk with file := disk.file.write id (some image) }
  | .written id image => { disk with file := disk.file.write id image }
  | .dirtied _ | .journalSynced | .fileSynced => disk

/-- The files after a sequence of events. -/
def Disk.applyAll (disk : Disk) (events : List Event) : Disk := events.foldl Disk.apply disk

@[simp] theorem Disk.applyAll_nil (disk : Disk) : disk.applyAll [] = disk := rfl

@[simp] theorem Disk.applyAll_append (disk : Disk) (first second : List Event) :
    disk.applyAll (first ++ second) = (disk.applyAll first).applyAll second :=
  List.foldl_append

@[simp] theorem Disk.applyAll_cons (disk : Disk) (event : Event) (rest : List Event) :
    disk.applyAll (event :: rest) = (disk.apply event).applyAll rest := rfl

end Ferrite.Storage
