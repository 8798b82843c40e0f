import Ferrite.Logical.OrderedMap
import Ferrite.Storage.Disk
import Mathlib.Order.Fin.Basic

/-!
# The pager

The page cache, the allocator and the write ordering (`ferrite-storage/src/pager.rs`).
Every operation runs under the engine lock, so it is a function of the pager that
returns its result and the pager afterwards; on an error the pager keeps what was
changed by then. Two things come from outside: the iteration order of the cache's
hash map, and which file operations fail.
-/

namespace Ferrite.Storage

open Logical

/-- How a file operation fails: after some of its bytes, with the system's reason. -/
structure Fault where
  bytes : Nat
  reason : String

/-- What the pager does not decide: the order in which each traversal of the cache
meets the pages, and which file operations fail. -/
structure Surroundings where
  order : Nat → List PageId → List PageId
  perm : ∀ turn ids, (order turn ids).Perm ids
  fault : Nat → Option Fault

/-- Nothing fails, and the cache is met in the order of the page ids. -/
def Surroundings.steady : Surroundings := ⟨fun _ ids => ids, fun _ _ => .refl _, fun _ => none⟩

/-- A cached page. -/
structure Entry where
  image : Image
  dirtyVsFile : Bool
  dirtyVsJournal : Bool
  used : Nat

/-- The pager's state, with the files as they stand and everything done to them. -/
structure Pager where
  around : Surroundings
  disk : Disk
  nextLsn : Nat
  syncOnCommit : Bool
  journalLen : Nat
  cache : OrderedMap PageId Entry
  capacity : Nat
  clock : Nat
  content : Meta
  metaDirtyVsJournal : Bool
  /-- File operations asked for so far. -/
  turns : Nat
  events : List Event

namespace Pager

/-- The answer of an operation and the pager after it. -/
abbrev Answer (α : Type) := Except FerriteError α × Pager

/-- Go on with the result of an operation that succeeded. -/
def Answer.andThen {α β : Type} (answer : Answer α) (next : α → Pager → Answer β) : Answer β :=
  match answer with
  | (.ok result, pager) => next result pager
  | (.error e, pager) => (.error e, pager)

@[simp] theorem Answer.andThen_ok {α β : Type} (result : α) (pager : Pager)
    (next : α → Pager → Answer β) : Answer.andThen (.ok result, pager) next = next result pager := rfl

/-- Record an event and its effect on the files. -/
def emit (pager : Pager) (event : Event) : Pager :=
  { pager with disk := pager.disk.apply event, events := pager.events ++ [event] }

/-- One more file operation was asked for. -/
def turn (pager : Pager) : Pager := { pager with turns := pager.turns + 1 }

/-- How the next file operation fails, if it does. -/
def nextFault (pager : Pager) : Option Fault := pager.around.fault pager.turns

def ioError (what : String) (fault : Fault) : FerriteError := .storage s!"{what}: {fault.reason}"

/-! ## The journal -/

def takeLsn (pager : Pager) : Nat × Pager := (pager.nextLsn, { pager with nextLsn := pager.nextLsn + 1 })

/-- Append a record. A failed append may leave part of the frame behind. -/
def append (pager : Pager) (record : Record) : Answer Unit :=
  match pager.nextFault with
  | none =>
    (.ok (), { pager.turn.emit (.appended record) with
      journalLen := pager.journalLen + record.frameLength })
  | some fault =>
    (.error (ioError "appending to journal" fault),
      if fault.bytes = 0 then pager.turn
      else if fault.bytes < record.frameLength then pager.turn.emit .cutAppend
      else pager.turn.emit (.appended record))

/-- Make everything appended so far durable. -/
def syncJournal (pager : Pager) : Answer Unit :=
  if pager.syncOnCommit then
    match pager.nextFault with
    | none => (.ok (), pager.turn.emit .journalSynced)
    | some fault => (.error (ioError "syncing journal" fault), pager.turn)
  else (.ok (), pager)

def truncateJournal (pager : Pager) : Answer Unit :=
  match pager.nextFault with
  | some fault => (.error (ioError "truncating journal" fault), pager.turn)
  | none =>
    let cleared := pager.turn.emit .truncated
    match cleared.nextFault with
    | some fault => (.error (ioError "syncing truncated journal" fault), cleared.turn)
    | none => (.ok (), { cleared.turn.emit .journalSynced with journalLen := 0 })

/-! ## The data file -/

/-- Read a page and check it. The two checksums of a page that holds none are left
out of the message. -/
def loadFromFile (pager : Pager) (id : PageId) : Answer Image :=
  match pager.nextFault with
  | some fault => (.error (ioError "reading data file" fault), pager.turn)
  | none =>
    match pager.disk.file.pages id with
    | some image => (.ok image, pager.turn)
    | none =>
      if id.val < pager.disk.file.length then
        (.error (.storage s!"page {id.val} checksum mismatch"), pager.turn)
      else (.error (.storage s!"page {id.val} is past the end of the data file"), pager.turn)

/-- Write a page at its place; `event` says on whose behalf. A write that fails midway
leaves a page no reader accepts. -/
def writePageToFile (pager : Pager) (id : PageId) (image : Image) (event : Event) : Answer Unit :=
  match pager.nextFault with
  | none => (.ok (), pager.turn.emit event)
  | some fault =>
    (.error (ioError "writing data file" fault),
      if fault.bytes = 0 then pager.turn
      else if fault.bytes < pageSize then pager.turn.emit (.written id none)
      else pager.turn.emit (.written id (some image)))

def syncFile (pager : Pager) : Answer Unit :=
  match pager.nextFault with
  | none => (.ok (), pager.turn.emit .fileSynced)
  | some fault => (.error (ioError "syncing data file" fault), pager.turn)

/-! ## Group flush -/

def encodedMetaPage (pager : Pager) : Except FerriteError Page := pager.content.encode

/-- Journal the meta page if it changed. -/
def flushMetaToJournal (pager : Pager) : Answer Unit :=
  if pager.metaDirtyVsJournal then
    match pager.encodedMetaPage with
    | .error e => (.error e, pager)
    | .ok page =>
      let (lsn, pager) := pager.takeLsn
      (pager.append (.pageImage metaPage ⟨lsn, page⟩)).andThen fun _ pager =>
        (.ok (), { pager with metaDirtyVsJournal := false })
  else (.ok (), pager)

/-- Replace a cached entry. -/
def setEntry (pager : Pager) (id : PageId) (entry : Entry) : Pager :=
  { pager with cache := pager.cache.insert id entry }

/-- Journal one page. Its flag is cleared before the append. -/
def journalPage (pager : Pager) (id : PageId) : Answer Unit :=
  let (lsn, pager) := pager.takeLsn
  match pager.cache.find? id with
  | none => (.ok (), pager)
  | some entry =>
    let image : Image := ⟨lsn, entry.image.page⟩
    (pager.setEntry id { entry with image := image, dirtyVsJournal := false }).append (.pageImage id image)

def journalPages (pager : Pager) : List PageId → Answer Unit
  | [] => (.ok (), pager)
  | id :: rest => (pager.journalPage id).andThen fun _ pager => pager.journalPages rest

/-- The cached pages a flag holds of, in the order the hash map gives them. -/
def pagesWhere (pager : Pager) (flag : Entry → Bool) : List PageId :=
  pager.around.order pager.turns ((pager.cache.entries.filter fun entry => flag entry.2).map Prod.fst)

/-- Journal the meta page and every page the journal does not know. -/
def journalDirtyPages (pager : Pager) : Answer Unit := pager.flushMetaToJournal.andThen fun _ pager =>
    pager.journalPages (pager.pagesWhere Entry.dirtyVsJournal)

/-! ## The cache -/

def tick (pager : Pager) : Nat × Pager := (pager.clock + 1, { pager with clock := pager.clock + 1 })

/-- The entry used longest ago. -/
def oldest : List (PageId × Entry) → Option (PageId × Entry)
  | [] => none
  | head :: rest =>
    match oldest rest with
    | none => some head
    | some other => if head.2.used ≤ other.2.used then some head else some other

/-- Drop the least recently used page, journalling every dirty page first if the
journal does not know it, and bring the data file up to date with it. -/
def evictOne (pager : Pager) : Answer Unit :=
  match oldest pager.cache.entries with
  | none => (.ok (), pager)
  | some (victim, entry) =>
    (if entry.dirtyVsJournal then pager.journalDirtyPages else (.ok (), pager)).andThen
      fun _ pager =>
        match pager.cache.find? victim with
        | none => (.ok (), pager)
        | some entry =>
          let pager := { pager with cache := pager.cache.erase victim }
          if entry.dirtyVsFile then
            pager.writePageToFile victim entry.image (.evicted victim entry.image)
          else (.ok (), pager)

/-- Evict until there is room for a page; each round drops one. -/
def evictRounds (pager : Pager) : Nat → Answer Unit
  | 0 => (.ok (), pager)
  | rounds + 1 =>
    if pager.cache.entries.length < pager.capacity then (.ok (), pager)
    else pager.evictOne.andThen fun _ pager => pager.evictRounds rounds

def evictIfNeeded (pager : Pager) : Answer Unit := pager.evictRounds pager.cache.entries.length

def ensureCached (pager : Pager) (id : PageId) : Answer Unit :=
  if (pager.cache.find? id).isSome then (.ok (), pager)
  else
    pager.evictIfNeeded.andThen fun _ pager =>
      (pager.loadFromFile id).andThen fun image pager =>
        let (used, pager) := pager.tick
        (.ok (), pager.setEntry id ⟨image, false, false, used⟩)

/-! ## Page access -/

/-- The entry of a page, cached if it was not, and the time of this use. -/
def entryOf (pager : Pager) (id : PageId) : Answer (Entry × Nat) := (pager.ensureCached id).andThen fun _ pager =>
    let (used, pager) := pager.tick
    match pager.cache.find? id with
    | none => (.error (.storage "just cached"), pager)
    | some entry => (.ok (entry, used), pager)

def withPage (pager : Pager) (id : PageId) : Answer Page := (pager.entryOf id).andThen fun access pager =>
    (.ok access.1.image.page, pager.setEntry id { access.1 with used := access.2 })

/-- Put a changed page into its entry. -/
def putDirty (pager : Pager) (id : PageId) (image : Image) (used : Nat) : Pager :=
  (pager.setEntry id ⟨image, true, true, used⟩).emit (.dirtied id)

/-- Change a page, returning it as it was. -/
def withPageMut (pager : Pager) (id : PageId) (change : Page → Page) : Answer Page :=
  (pager.entryOf id).andThen fun access pager =>
    (.ok access.1.image.page, pager.putDirty id ⟨access.1.image.lsn, change access.1.image.page⟩ access.2)

def writePage (pager : Pager) (id : PageId) (page : Page) : Answer Unit :=
  (pager.entryOf id).andThen fun access pager => (.ok (), pager.putDirty id ⟨0, page⟩ access.2)

def metaMut (pager : Pager) (change : Meta → Meta) : Pager :=
  { pager.emit (.dirtied metaPage) with content := change pager.content, metaDirtyVsJournal := true }

/-- Take a page from the free list, or one past the last. -/
def takePageId (pager : Pager) : Answer PageId :=
  let head := pager.content.freeListHead
  if head ≠ noPage then
    (pager.withPage head).andThen fun page pager =>
      (.ok head, pager.metaMut fun content => { content with freeListHead := page.extra })
  else
    (.ok pager.content.pageCount, pager.metaMut fun content => { content with pageCount := content.pageCount + 1 })

def allocPage (pager : Pager) (kind : PageKind) : Answer PageId := pager.takePageId.andThen fun id pager =>
    pager.evictIfNeeded.andThen fun _ pager =>
      let (used, pager) := pager.tick
      (.ok id, pager.putDirty id ⟨0, Page.new kind⟩ used)

def freePage (pager : Pager) (id : PageId) : Answer Unit :=
  (pager.writePage id ((Page.new .free).setExtra pager.content.freeListHead)).andThen fun _ pager =>
    (.ok (), pager.metaMut fun content => { content with freeListHead := id })

/-! ## Commit, abort, checkpoint -/

/-- Journal every change, record the commit, and make the journal durable. -/
def commitToJournal (pager : Pager) (txn : TxnId) : Answer Unit := pager.journalDirtyPages.andThen fun _ pager =>
    (pager.append (.commit txn)).andThen fun _ pager => pager.syncJournal

def abortToJournal (pager : Pager) (txn : TxnId) : Answer Unit := pager.append (.abort txn)

/-- Bring the data file up to date with one page. -/
def checkpointPage (pager : Pager) (id : PageId) : Answer Unit :=
  match pager.cache.find? id with
  | none => (.ok (), pager)
  | some entry =>
    (pager.writePageToFile id entry.image (.written id (some entry.image))).andThen fun _ pager =>
      (.ok (), pager.setEntry id { entry with dirtyVsFile := false, dirtyVsJournal := false })

def checkpointPages (pager : Pager) : List PageId → Answer Unit
  | [] => (.ok (), pager)
  | id :: rest => (pager.checkpointPage id).andThen fun _ pager => pager.checkpointPages rest

/-- Write the meta page into the data file. -/
def checkpointMeta (pager : Pager) : Answer Unit :=
  match pager.encodedMetaPage with
  | .error e => (.error e, pager)
  | .ok page =>
    (pager.writePageToFile metaPage ⟨0, page⟩ (.written metaPage (some ⟨0, page⟩))).andThen
      fun _ pager => (.ok (), { pager with metaDirtyVsJournal := false })

/-- Write every cached change into the data file, then discard the journal. -/
def checkpoint (pager : Pager) : Answer Unit :=
  (pager.checkpointPages (pager.pagesWhere Entry.dirtyVsFile)).andThen fun _ pager =>
    pager.checkpointMeta.andThen fun _ pager =>
      pager.syncFile.andThen fun _ pager =>
        (pager.append .checkpoint).andThen fun _ pager =>
          pager.syncJournal.andThen fun _ pager => pager.truncateJournal

/-! ## Opening -/

/-- Open the database in the two files: replay the journal into the data file, discard
it, and read the meta page, or write one into an empty file. The file operations of
the replay are not counted. -/
def openFiles (around : Surroundings) (capacity : Nat) (syncOnCommit : Bool) (disk : Disk) :
    Except FerriteError Pager :=
  let file := disk.recover
  let pager : Pager :=
    { around := around
      disk := ⟨file, []⟩
      nextLsn := max 1 (maxLsn (intactRecords disk.journal) + 1)
      syncOnCommit := syncOnCommit
      journalLen := 0
      cache := .empty
      capacity := max capacity 8
      clock := 0
      content := .fresh
      metaDirtyVsJournal := false
      turns := 0
      events := [] }
  if file.length = 0 then
    match Meta.fresh.encode with
    | .error e => .error e
    | .ok page => .ok { pager with disk := ⟨file.write metaPage (some ⟨0, page⟩), []⟩ }
  else
    match file.pages metaPage with
    | none => .error (.storage s!"page {metaPage.val} checksum mismatch")
    | some image =>
      match Meta.decode image.page with
      | .error e => .error e
      | .ok content => .ok { pager with content := content }

end Pager
end Ferrite.Storage
