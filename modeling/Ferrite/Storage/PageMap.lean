import Ferrite.Storage.Checkpoint

/-!
# The pager as a plain page map

What the pager is for: a map from page ids to pages, and the meta record. Every call of
the pager is answered as that map answers it, whatever the cache evicted, as long as the
meta page is left to the pager and the commit-log directory fits into it; and right after
a commit or a checkpoint the two files hold exactly that map.
-/

namespace Ferrite.Storage

/-- The calls of the pager, by the type of their result. A change returns the page as it
was, from which the caller's result is computed. -/
inductive PagerCall : Type → Type where
  | allocPage (kind : PageKind) : PagerCall PageId
  | freePage (id : PageId) : PagerCall Unit
  | withPage (id : PageId) : PagerCall Page
  | withPageMut (id : PageId) (change : Page → Page) : PagerCall Page
  | writePage (id : PageId) (page : Page) : PagerCall Unit
  | readMeta : PagerCall Meta
  | metaMut (change : Meta → Meta) : PagerCall Unit
  | commitToJournal (txn : TxnId) : PagerCall Unit
  | abortToJournal (txn : TxnId) : PagerCall Unit
  | checkpoint : PagerCall Unit
  /-- A checkpoint once the journal has reached a size, zero meaning never. -/
  | checkpointFrom (journalBytes : Nat) : PagerCall Unit

def Pager.call {α : Type} (pager : Pager) : PagerCall α → Pager.Answer α
  | .allocPage kind => pager.allocPage kind
  | .freePage id => pager.freePage id
  | .withPage id => pager.withPage id
  | .withPageMut id change => pager.withPageMut id change
  | .writePage id page => pager.writePage id page
  | .readMeta => (.ok pager.content, pager)
  | .metaMut change => (.ok (), pager.metaMut change)
  | .commitToJournal txn => pager.commitToJournal txn
  | .abortToJournal txn => pager.abortToJournal txn
  | .checkpoint => pager.checkpoint
  | .checkpointFrom journalBytes =>
    if 0 < journalBytes ∧ journalBytes ≤ pager.journalLen then pager.checkpoint else (.ok (), pager)

/-- A map from page ids to pages, and the meta record. -/
structure PageMap where
  pages : PageId → Option Page
  content : Meta

namespace PageMap

/-- Put a page under an id. -/
def set (map : PageMap) (id : PageId) (page : Page) : PageMap :=
  { map with pages := fun other => if other = id then some page else map.pages other }

@[simp] theorem pages_set (map : PageMap) (id other : PageId) (page : Page) :
    (map.set id page).pages other = if other = id then some page else map.pages other := rfl

/-- The id the next allocation hands out. -/
def nextPage (map : PageMap) : PageId :=
  if map.content.freeListHead ≠ noPage then map.content.freeListHead else map.content.pageCount

/-- The meta record after an allocation, unless the free list leads nowhere. -/
def taken (map : PageMap) : Option Meta :=
  if map.content.freeListHead ≠ noPage then
    (map.pages map.content.freeListHead).map fun page =>
      { map.content with freeListHead := page.extra }
  else some { map.content with pageCount := map.content.pageCount + 1 }

/-- A new page in a page that was free, or past the last. -/
def allocPage (map : PageMap) (kind : PageKind) : Option (PageId × PageMap) := map.taken.map fun content =>
    (map.nextPage, { map.set map.nextPage (Page.new kind) with content := content })

/-- Put a page in front of the free list. -/
def freePage (map : PageMap) (id : PageId) : Option (Unit × PageMap) := (map.pages id).map fun _ =>
    ((), { map.set id ((Page.new .free).setExtra map.content.freeListHead) with
      content := { map.content with freeListHead := id } })

/-- Answer a call; a call fails only on a page the map does not have. -/
def call {α : Type} (map : PageMap) : PagerCall α → Option (α × PageMap)
  | .allocPage kind => map.allocPage kind
  | .freePage id => map.freePage id
  | .withPage id => (map.pages id).map fun page => (page, map)
  | .withPageMut id change => (map.pages id).map fun page => (page, map.set id (change page))
  | .writePage id page => (map.pages id).map fun _ => ((), map.set id page)
  | .readMeta => some (map.content, map)
  | .metaMut change => some ((), { map with content := change map.content })
  | .commitToJournal _ | .abortToJournal _ | .checkpoint | .checkpointFrom _ => some ((), map)

/-- The meta page is the pager's own, and the commit-log directory fits into it. -/
def Admits {α : Type} (map : PageMap) : PagerCall α → Prop
  | .allocPage _ => map.nextPage ≠ metaPage
  | .freePage id | .withPage id | .withPageMut id _ | .writePage id _ => id ≠ metaPage
  | .metaMut change => Pager.Fits (change map.content)
  | .readMeta | .commitToJournal _ | .abortToJournal _ | .checkpoint | .checkpointFrom _ => True

instance {α : Type} (map : PageMap) (call : PagerCall α) : Decidable (map.Admits call) := by
  cases call <;> unfold Admits <;> infer_instance

end PageMap

namespace Pager

/-- The pager holds the pages and the meta record of a page map, and is in order. -/
structure Holds (pager : Pager) (map : PageMap) : Prop where
  sound : pager.Sound
  calm : pager.Calm
  fits : Fits pager.content
  content : pager.content = map.content
  pages : ∀ id, id ≠ metaPage → pager.held id = map.pages id

variable {pager : Pager} {map : PageMap} {flushes : Prop}

private theorem Holds.moves {after : Pager} (holds : pager.Holds map)
    (moves : Moves (· ≠ metaPage) flushes pager after) : after.Holds map := by
  obtain ⟨sound, content, held⟩ := holds.sound.moves moves
  refine ⟨sound, moves.calm holds.calm, ?_, content.trans holds.content, fun id real => ?_⟩
  · rw [content]
    exact holds.fits
  · rw [held id real, holds.pages id real]

private theorem Holds.putDirty (holds : pager.Holds map) {id : PageId} (real : id ≠ metaPage) (image : Image)
    (used : Nat) : (pager.putDirty id image used).Holds (map.set id image.page) := by
  obtain ⟨sound, held⟩ := holds.sound.putDirty real image used
  refine ⟨sound, holds.calm, holds.fits, holds.content, fun probe realProbe => ?_⟩
  rw [held, PageMap.pages_set, holds.pages probe realProbe]

private theorem Holds.metaMut (holds : pager.Holds map) {change : Meta → Meta} (fits : Fits (change map.content)) :
    (pager.metaMut change).Holds { map with content := change map.content } := by
  have content : (pager.metaMut change).content = change map.content := by
    rw [← holds.content]
    rfl
  exact ⟨holds.sound.metaMut change, holds.calm, content ▸ fits, content, holds.pages⟩

/-- How the pager answers for the page map: as the map does, or with an error where the
map has no such page. -/
def Answers {α : Type} (answer : Answer α) (map : PageMap) (expected : Option (α × PageMap)) : Prop :=
  match expected with
  | some (result, next) => ∃ after, answer = (.ok result, after) ∧ after.Holds next
  | none => ∃ e after, answer = (.error e, after) ∧ after.Holds map

/-- A page the pager brought into the cache, or one the map does not have. -/
theorem Holds.entryOf (holds : pager.Holds map) {id : PageId} (real : id ≠ metaPage) : ∃ after, after.Holds map ∧
      ((∃ entry used, pager.entryOf id = (.ok (entry, used), after) ∧
          map.pages id = some entry.image.page ∧ after.cache.find? id = some entry) ∨
        ((∃ e, pager.entryOf id = (.error e, after)) ∧ map.pages id = none)) := by
  obtain ⟨after, moves, -, outcome⟩ := entryOf_spec (· ≠ metaPage) holds.calm holds.fits real (.inr trivial)
  have holdsNext := holds.moves moves
  refine ⟨after, holdsNext, ?_⟩
  rcases outcome with ⟨entry, used, result, found⟩ | ⟨failed, absent, noFile⟩
  · refine Or.inl ⟨entry, used, result, ?_, found⟩
    rw [← holdsNext.pages id real, held_cached found]
  · refine Or.inr ⟨failed, ?_⟩
    rw [← holdsNext.pages id real, held_uncached absent, noFile]
    rfl

private theorem Holds.withPage (holds : pager.Holds map) {id : PageId} (real : id ≠ metaPage) :
    Answers (pager.withPage id) map ((map.pages id).map fun page => (page, map)) := by
  obtain ⟨after, moves, -, outcome⟩ := withPage_spec (· ≠ metaPage) holds.calm holds.fits real (.inr trivial)
  have holdsNext := holds.moves moves
  rcases outcome with ⟨entry, result, found⟩ | ⟨⟨e, failed⟩, absent, noFile⟩
  · rw [← holdsNext.pages id real, held_cached found]
    exact ⟨after, result, holdsNext⟩
  · rw [← holdsNext.pages id real, held_uncached absent, noFile]
    exact ⟨e, after, failed, holdsNext⟩

private theorem Holds.withPageMut (holds : pager.Holds map) {id : PageId} (real : id ≠ metaPage)
    (change : Page → Page) :
    Answers (pager.withPageMut id change) map ((map.pages id).map fun page => (page, map.set id (change page))) := by
  unfold Pager.withPageMut
  obtain ⟨after, holdsNext, outcome⟩ := holds.entryOf real
  rcases outcome with ⟨entry, used, result, found, -⟩ | ⟨⟨e, failed⟩, missing⟩
  · rw [result, found]
    exact ⟨_, rfl, holdsNext.putDirty real _ used⟩
  · rw [failed, missing]
    exact ⟨e, after, rfl, holdsNext⟩

private theorem Holds.writePage (holds : pager.Holds map) {id : PageId} (real : id ≠ metaPage) (page : Page) :
    Answers (pager.writePage id page) map ((map.pages id).map fun _ => ((), map.set id page)) := by
  unfold Pager.writePage
  obtain ⟨after, holdsNext, outcome⟩ := holds.entryOf real
  rcases outcome with ⟨entry, used, result, found, -⟩ | ⟨⟨e, failed⟩, missing⟩
  · rw [result, found]
    exact ⟨_, rfl, holdsNext.putDirty real ⟨0, page⟩ used⟩
  · rw [failed, missing]
    exact ⟨e, after, rfl, holdsNext⟩

private theorem Holds.takePageId (holds : pager.Holds map) (real : map.nextPage ≠ metaPage) :
    Answers pager.takePageId map
      (map.taken.map fun content => (map.nextPage, { map with content := content })) := by
  have fits : Fits map.content := holds.content ▸ holds.fits
  unfold Pager.takePageId
  unfold PageMap.nextPage at real
  unfold PageMap.taken PageMap.nextPage
  dsimp only
  rw [holds.content]
  by_cases isList : map.content.freeListHead ≠ noPage
  · simp only [if_pos isList] at real ⊢
    have read := holds.withPage real
    cases found : map.pages map.content.freeListHead with
    | none =>
      rw [found] at read
      obtain ⟨e, after, failed, holdsNext⟩ := read
      rw [failed]
      exact ⟨e, after, rfl, holdsNext⟩
    | some page =>
      rw [found] at read
      obtain ⟨after, result, holdsNext⟩ := read
      rw [result]
      refine ⟨_, rfl, holdsNext.metaMut ?_⟩
      exact fits
  · simp only [if_neg isList]
    refine ⟨_, rfl, holds.metaMut ?_⟩
    exact fits

private theorem Holds.allocPage (holds : pager.Holds map) (real : map.nextPage ≠ metaPage) (kind : PageKind) :
    Answers (pager.allocPage kind) map (map.allocPage kind) := by
  have take := holds.takePageId real
  unfold Pager.allocPage PageMap.allocPage
  cases taken : map.taken with
  | none =>
    rw [taken] at take
    obtain ⟨e, after, failed, holdsNext⟩ := take
    rw [failed]
    exact ⟨e, after, rfl, holdsNext⟩
  | some content =>
    rw [taken] at take
    obtain ⟨next, result, holdsNext⟩ := take
    obtain ⟨after, evicted, evicts⟩ := evictIfNeeded_spec (· ≠ metaPage) (.inr trivial) holdsNext.calm holdsNext.fits
    rw [result, Answer.andThen_ok, evicted]
    have holdsAfter := holdsNext.moves evicts.moves
    have idle : Move (· ≠ metaPage) False after after.tick.2 := .idle (becomes_counters rfl rfl rfl rfl rfl)
    have ticked := holdsAfter.moves (.single idle)
    exact ⟨_, rfl, ticked.putDirty real ⟨0, Page.new kind⟩ _⟩

private theorem Holds.freePage (holds : pager.Holds map) {id : PageId} (real : id ≠ metaPage) :
    Answers (pager.freePage id) map (map.freePage id) := by
  have fits : Fits map.content := holds.content ▸ holds.fits
  have write := holds.writePage real ((Page.new .free).setExtra pager.content.freeListHead)
  unfold Pager.freePage PageMap.freePage
  rw [holds.content] at write ⊢
  cases found : map.pages id with
  | none =>
    rw [found] at write
    obtain ⟨e, after, failed, holdsNext⟩ := write
    rw [failed]
    exact ⟨e, after, rfl, holdsNext⟩
  | some page =>
    rw [found] at write
    obtain ⟨after, result, holdsNext⟩ := write
    rw [result]
    refine ⟨_, rfl, holdsNext.metaMut ?_⟩
    exact fits

private theorem Holds.checkpoint (holds : pager.Holds map) :
    ∃ after, pager.checkpoint = (.ok (), after) ∧ after.Holds map ∧ after.Settled := by
  obtain ⟨after, done, settled, -, around, content, held⟩ := holds.sound.checkpoint holds.calm holds.fits
  refine ⟨after, done, ⟨settled.sound, ?_, ?_, content.trans holds.content, fun id real => ?_⟩, settled⟩
  · unfold Calm
    rw [around]
    exact holds.calm
  · rw [content]
    exact holds.fits
  · rw [held id real, holds.pages id real]

private theorem Holds.commitToJournal (holds : pager.Holds map) (txn : TxnId) :
    ∃ after, pager.commitToJournal txn = (.ok (), after) ∧ after.Holds map ∧ after.Settled := by
  obtain ⟨after, done, moves, -, metaKnown, -, pagesKnown⟩ := commitToJournal_spec trivial holds.calm holds.fits txn
  have holdsNext := holds.moves moves
  exact ⟨after, done, holdsNext, holdsNext.sound, metaKnown, pagesKnown⟩

/-- The pager answers every call as the page map does. -/
theorem Holds.call {α : Type} (holds : pager.Holds map) (call : PagerCall α) (admits : map.Admits call) :
    Answers (pager.call call) map (map.call call) := by
  cases call with
  | allocPage kind => exact holds.allocPage admits kind
  | freePage id => exact holds.freePage admits
  | withPage id => exact holds.withPage admits
  | withPageMut id change => exact holds.withPageMut admits change
  | writePage id page => exact holds.writePage admits page
  | readMeta =>
    refine ⟨pager, ?_, holds⟩
    rw [← holds.content]
    rfl
  | metaMut change => exact ⟨_, rfl, holds.metaMut admits⟩
  | commitToJournal txn =>
    obtain ⟨after, done, holdsNext, -⟩ := holds.commitToJournal txn
    exact ⟨after, done, holdsNext⟩
  | abortToJournal txn =>
    have isOther : (Record.abort txn).isImage = false := rfl
    obtain ⟨after, done, move, -⟩ := append_note holds.calm isOther
    have moves : Moves (· ≠ metaPage) False pager after := .single move
    exact ⟨after, done, holds.moves moves⟩
  | checkpoint =>
    obtain ⟨after, done, holdsNext, -⟩ := holds.checkpoint
    exact ⟨after, done, holdsNext⟩
  | checkpointFrom journalBytes =>
    unfold Pager.call
    dsimp only
    split
    · obtain ⟨after, done, holdsNext, -⟩ := holds.checkpoint
      exact ⟨after, done, holdsNext⟩
    · exact ⟨pager, rfl, holds⟩

end Pager

/-! ## Runs -/

/-- A call with the type of its result. -/
abbrev AnyCall := (α : Type) × PagerCall α

/-- The pager after some calls, whatever they returned. -/
def Pager.run (pager : Pager) (calls : List AnyCall) : Pager :=
  calls.foldl (fun pager call => (pager.call call.2).2) pager

namespace PageMap

/-- The page map after a call; a call that fails leaves it alone. -/
def after {α : Type} (map : PageMap) (call : PagerCall α) : PageMap := ((map.call call).map Prod.snd).getD map

/-- The page map after some calls. -/
def run (map : PageMap) (calls : List AnyCall) : PageMap := calls.foldl (fun map call => map.after call.2) map

/-- The call leaves the page it changes in one use. -/
def KeepsUse {α : Type} (map : PageMap) : PagerCall α → Prop
  | .withPageMut id change => ∀ page, map.pages id = some page → (change page).OneUse
  | .writePage _ page => page.OneUse
  | _ => True

/-- Every call of a run is admitted when its turn comes, and keeps its page to one use. -/
def AdmitsAll (map : PageMap) : List AnyCall → Prop
  | [] => True
  | call :: rest => map.Admits call.2 ∧ map.KeepsUse call.2 ∧ (map.after call.2).AdmitsAll rest

/-- The page map recovery restores from the two files, with a meta record. -/
def recovered (disk : Disk) (content : Meta) : PageMap where
  pages := fun id => (disk.durable id).map Image.page
  content := content

end PageMap

namespace PageMap

/-- Every page is in one use. -/
def InOneUse (map : PageMap) : Prop := ∀ id page, map.pages id = some page → page.OneUse

variable {map : PageMap}

private theorem InOneUse.set (uses : map.InOneUse) (id : PageId) {page : Page} (use : page.OneUse) :
    (map.set id page).InOneUse := by
  intro other found isPage
  rw [pages_set] at isPage
  split at isPage
  · exact Option.some.inj isPage ▸ use
  · exact uses other found isPage

private theorem InOneUse.after {α : Type} {call : PagerCall α} (uses : map.InOneUse) (keeps : map.KeepsUse call) :
    (map.after call).InOneUse := by
  have new (kind : PageKind) (extra : PageId) : ((Page.new kind).setExtra extra).OneUse := .inl ⟨rfl, rfl⟩
  unfold PageMap.after
  cases call with
  | allocPage kind =>
    simp only [call, allocPage]
    cases map.taken with
    | none => exact uses
    | some content => exact uses.set map.nextPage (new kind noPage)
  | freePage id =>
    simp only [call, freePage]
    cases map.pages id with
    | none => exact uses
    | some page => exact uses.set id (new .free map.content.freeListHead)
  | withPageMut id change =>
    simp only [call]
    cases found : map.pages id with
    | none => exact uses
    | some page => exact uses.set id (keeps page found)
  | writePage id page =>
    simp only [call]
    cases map.pages id with
    | none => exact uses
    | some old => exact uses.set id keeps
  | withPage id =>
    simp only [call]
    cases map.pages id <;> exact uses
  | _ => exact uses

private theorem InOneUse.run (calls : List AnyCall) (uses : map.InOneUse) (admits : map.AdmitsAll calls) :
    (map.run calls).InOneUse := by
  induction calls generalizing map with
  | nil => exact uses
  | cons call rest ih => exact ih (uses.after admits.2.1) admits.2.2

end PageMap

/-- A call after which the two files hold everything. -/
def PagerCall.settles {α : Type} : PagerCall α → Bool
  | .commitToJournal _ | .checkpoint => true
  | _ => false

namespace Pager

variable {pager : Pager} {map : PageMap}

private theorem Answers.holds {α : Type} {answer : Answer α} {call : PagerCall α}
    (answers : Answers answer map (map.call call)) : answer.2.Holds (map.after call) := by
  unfold PageMap.after
  cases expected : map.call call with
  | none =>
    rw [expected] at answers
    obtain ⟨e, after, rfl, holds⟩ := answers
    exact holds
  | some pair =>
    rw [expected] at answers
    obtain ⟨after, rfl, holds⟩ := answers
    exact holds

private theorem Answers.result {α : Type} {answer : Answer α} {call : PagerCall α}
    (answers : Answers answer map (map.call call)) : answer.1.toOption = (map.call call).map Prod.fst := by
  cases expected : map.call call with
  | none =>
    rw [expected] at answers
    obtain ⟨e, after, rfl, -⟩ := answers
    rfl
  | some pair =>
    rw [expected] at answers
    obtain ⟨after, rfl, -⟩ := answers
    rfl

/-- A run keeps the pager holding the map the same calls lead to. -/
theorem Holds.run (calls : List AnyCall) (holds : pager.Holds map) (admits : map.AdmitsAll calls) :
    (pager.run calls).Holds (map.run calls) := by
  induction calls generalizing pager map with
  | nil => exact holds
  | cons call rest ih =>
    obtain ⟨first, -, others⟩ := admits
    exact ih (holds.call call.2 first).holds others

private theorem Holds.settles {α : Type} (holds : pager.Holds map) {call : PagerCall α}
    (settles : call.settles = true) : (pager.call call).2.Settled := by
  cases call with
  | commitToJournal txn =>
    obtain ⟨after, done, -, settled⟩ := holds.commitToJournal txn
    have same : pager.call (.commitToJournal txn) = (.ok (), after) := done
    rw [same]
    exact settled
  | checkpoint =>
    obtain ⟨after, done, -, settled⟩ := holds.checkpoint
    have same : pager.call .checkpoint = (.ok (), after) := done
    rw [same]
    exact settled
  | _ => simp [PagerCall.settles] at settles

/-- A pager just opened holds what recovery finds in the files. -/
theorem holds_of_opened {around : Surroundings} {capacity : Nat} {syncOnCommit : Bool} {disk : Disk}
    (calm : ∀ turn, around.fault turn = none) (opened : openFiles around capacity syncOnCommit disk = .ok pager) :
    pager.Holds (.recovered disk pager.content) := by
  obtain ⟨settled, same, fits, held⟩ := openFiles_spec opened
  refine ⟨settled.sound, ?_, fits, rfl, held⟩
  unfold Calm
  rw [same]
  exact calm

/-- Nine pages, all but the first changed since it was evicted, and a commit-log directory
one segment too long. -/
def overfullDirectory : List AnyCall := List.replicate 9 ⟨_, .allocPage .leaf⟩ ++
    ([2, 3, 4, 5, 6, 7, 8, 9].map fun id => ⟨_, .withPageMut id fun page => page.setExtra noPage⟩) ++
    [⟨_, .metaMut fun content =>
      { content with clogPages := List.replicate (clogDirectoryCapacity + 1) 1 }⟩]

end Pager
end Ferrite.Storage
