import Ferrite.Storage.Places

/-!
# Checkpoint and reopening

A checkpoint brings the data file up to date page by page and then discards the journal;
in between the two files disagree with the flags. What it writes is listed by
`checkpointWrites`. After a commit or a checkpoint nothing is left that only the cache
knows (`Settled`), and opening the two files then gives back the same pages.
-/

namespace Ferrite.Storage

open Logical Entry

/-- The entry once the data file knows it. -/
def Entry.cleaned (entry : Entry) : Entry := { entry with dirtyVsFile := false, dirtyVsJournal := false }

namespace Pager

/-- The writes that bring the data file up to date with some pages. -/
def checkpointWrites (pager : Pager) (ids : List PageId) : List Event := ids.filterMap fun id =>
    (pager.cache.find? id).map fun entry => .written id (some entry.image)

section

variable {pager : Pager}

private theorem checkpointPage_spec (calm : pager.Calm) {id : PageId} {entry : Entry}
    (found : pager.cache.find? id = some entry) : ∃ after, pager.checkpointPage id = (.ok (), after) ∧
      Becomes pager after [.written id (some entry.image)] (pager.cache.insert id entry.cleaned)
        pager.content pager.metaDirtyVsJournal := by
  rw [checkpointPage, found]
  dsimp only
  rw [writePageToFile, nextFault, calm]
  exact ⟨_, rfl, rfl, rfl, rfl, rfl, rfl, rfl, rfl, rfl⟩

/-- What writing some cached pages does: their entries are clean, the others untouched. -/
theorem checkpointPages_spec (calm : pager.Calm) {ids : List PageId}
    (cached : ∀ id ∈ ids, (pager.cache.find? id).isSome = true) :
    ∃ after cache, pager.checkpointPages ids = (.ok (), after) ∧
      Becomes pager after (pager.checkpointWrites ids) cache pager.content pager.metaDirtyVsJournal ∧
      ∀ id, cache.find? id =
        if id ∈ ids then (pager.cache.find? id).map cleaned else pager.cache.find? id := by
  induction ids generalizing pager with
  | nil =>
    refine ⟨pager, pager.cache, rfl, ?_, fun _ => by simp⟩
    exact ⟨rfl, rfl, rfl, rfl, (List.append_nil _).symm, rfl, rfl, rfl⟩
  | cons id rest ih =>
    obtain ⟨entry, found⟩ := Option.isSome_iff_exists.mp (cached id List.mem_cons_self)
    obtain ⟨next, result, becomes⟩ := checkpointPage_spec calm found
    have lookup : ∀ other, next.cache.find? other =
        if other = id then some entry.cleaned else pager.cache.find? other := by
      intro other
      rw [becomes.cache, OrderedMap.find?_insert]
    have cachedNext : ∀ other ∈ rest, (next.cache.find? other).isSome = true := by
      intro other member
      rw [lookup]
      split
      · rfl
      · exact cached other (List.mem_cons_of_mem _ member)
    obtain ⟨after, cache, results, more, clean⟩ := ih (becomes.calm calm) cachedNext
    -- Cleaning an entry leaves its image, so the remaining writes are those of the start.
    have writes : next.checkpointWrites rest = pager.checkpointWrites rest := by
      unfold checkpointWrites
      congr 1
      funext other
      rw [lookup]
      split
      · rename_i here
        rw [here, found]
        rfl
      · rfl
    have listed : pager.checkpointWrites (id :: rest) =
        [.written id (some entry.image)] ++ pager.checkpointWrites rest := by
      simp [checkpointWrites, found]
    refine ⟨after, cache, ?_, ?_, ?_⟩
    · rw [checkpointPages, result]
      exact results
    · have all := becomes.trans more
      rwa [becomes.content, becomes.metaDirty, writes, ← listed] at all
    · intro other
      rw [clean, lookup]
      by_cases here : other = id
      · subst here
        simp [found, cleaned]
      · simp [here]

/-- The events of a checkpoint that writes the meta page `page` last. -/
def checkpointEvents (pager : Pager) (page : Page) : List Event :=
  pager.checkpointWrites (pager.pagesWhere dirtyVsFile) ++
    [.written metaPage (some ⟨0, page⟩), .fileSynced, .appended .checkpoint] ++
    (if pager.syncOnCommit then [.journalSynced] else []) ++ [.truncated, .journalSynced]

private theorem checkpointMeta_spec (calm : pager.Calm) {page : Page} (encoded : pager.content.encode = .ok page) :
    ∃ after, pager.checkpointMeta = (.ok (), after) ∧
      Becomes pager after [.written metaPage (some ⟨0, page⟩)] pager.cache pager.content false := by
  rw [checkpointMeta, encodedMetaPage, encoded]
  dsimp only
  rw [writePageToFile, nextFault, calm]
  exact ⟨_, rfl, rfl, rfl, rfl, rfl, rfl, rfl, rfl, rfl⟩

private theorem syncFile_spec (calm : pager.Calm) : ∃ after, pager.syncFile = (.ok (), after) ∧
      Becomes pager after [.fileSynced] pager.cache pager.content pager.metaDirtyVsJournal := by
  rw [syncFile, nextFault, calm]
  exact ⟨_, rfl, rfl, rfl, rfl, rfl, rfl, rfl, rfl, rfl⟩

private theorem truncateJournal_spec (calm : pager.Calm) : ∃ after, pager.truncateJournal = (.ok (), after) ∧
      Becomes pager after [.truncated, .journalSynced] pager.cache pager.content
        pager.metaDirtyVsJournal := by
  rw [truncateJournal, nextFault, calm]
  dsimp only [nextFault, turn, emit]
  rw [calm]
  refine ⟨_, rfl, rfl, rfl, rfl, rfl, ?_, rfl, rfl, rfl⟩
  simp

private theorem checkpoint_spec (calm : pager.Calm) {page : Page} (encoded : pager.content.encode = .ok page) :
    ∃ after cache, pager.checkpoint = (.ok (), after) ∧
      Becomes pager after (pager.checkpointEvents page) cache pager.content false ∧
      ∀ id, cache.find? id = if id ∈ pager.pagesWhere dirtyVsFile
        then (pager.cache.find? id).map cleaned else pager.cache.find? id := by
  have cached : ∀ id ∈ pager.pagesWhere dirtyVsFile, (pager.cache.find? id).isSome = true := by
    intro id member
    obtain ⟨entry, found, -⟩ := mem_pagesWhere.mp member
    simp [found]
  obtain ⟨written, cache, pagesDone, pages, clean⟩ := checkpointPages_spec calm cached
  have encodedNext : written.content.encode = .ok page := by rw [pages.content, encoded]
  obtain ⟨described, metaDone, meta'⟩ := checkpointMeta_spec (pages.calm calm) encodedNext
  have soFar := pages.trans meta'
  obtain ⟨synced, syncDone, sync⟩ := syncFile_spec (soFar.calm calm)
  have soFar := soFar.trans sync
  obtain ⟨noted, noteDone, note⟩ := append_spec (soFar.calm calm) .checkpoint
  have soFar := soFar.trans note
  obtain ⟨durable, durableDone, sync'⟩ := syncJournal_becomes (soFar.calm calm)
  have soFar := soFar.trans sync'
  obtain ⟨after, truncateDone, truncate⟩ := truncateJournal_spec (soFar.calm calm)
  refine ⟨after, cache, ?_, ?_, clean⟩
  · rw [checkpoint, pagesDone, Answer.andThen_ok, metaDone, Answer.andThen_ok, syncDone,
      Answer.andThen_ok, noteDone, Answer.andThen_ok, durableDone, Answer.andThen_ok, truncateDone]
  · have all := soFar.trans truncate
    have sameSync : noted.syncOnCommit = pager.syncOnCommit := by rw [note.sync, sync.sync, meta'.sync, pages.sync]
    have caches : durable.cache = cache := by rw [sync'.cache, note.cache, sync.cache, meta'.cache, pages.cache]
    have contents : durable.content = pager.content := by
      rw [sync'.content, note.content, sync.content, meta'.content, pages.content]
    have dirties : durable.metaDirtyVsJournal = false := by
      rw [sync'.metaDirty, note.metaDirty, sync.metaDirty, meta'.metaDirty]
    rw [caches, contents, dirties, sameSync] at all
    simpa [checkpointEvents] using all

private theorem pages_checkpointWrites (pager : Pager) (disk : Disk) (ids : List PageId) (id : PageId) :
    (disk.applyAll (pager.checkpointWrites ids)).file.pages id =
      if id ∈ ids then ((pager.cache.find? id).map image).or (disk.file.pages id)
      else disk.file.pages id := by
  induction ids generalizing disk with
  | nil => rfl
  | cons head rest ih =>
    unfold checkpointWrites at ih ⊢
    cases found : pager.cache.find? head with
    | none =>
      rw [List.filterMap_cons_none (by rw [found]; rfl), ih]
      by_cases here : id = head
      · simp [here, found]
      · simp [here]
    | some entry =>
      rw [List.filterMap_cons_some (by rw [found]; rfl), Disk.applyAll_cons, ih]
      by_cases here : id = head
      · subst here
        simp [found, Disk.apply]
      · simp [here, Disk.apply]

end

/-! ## The pager after a checkpoint -/

/-- Nothing is left that only the cache knows. -/
structure Settled (pager : Pager) : Prop where
  sound : pager.Sound
  metaKnown : pager.metaDirtyVsJournal = false
  pagesKnown : ∀ id entry, pager.cache.find? id = some entry → entry.dirtyVsJournal = false

variable {pager : Pager} {id : PageId}

private theorem restored_of_no_journal (empty : pager.disk.journal = []) (id : PageId) :
    pager.restored id = (pager.disk.file.pages id).map Image.page := by
  have whole : pager.disk.Whole [] := empty
  rw [restored, Disk.durable_eq whole]
  rfl

/-- A page a checkpoint does not list is known to both files. -/
theorem Sound.unlisted (sound : pager.Sound) {entry : Entry} (found : pager.cache.find? id = some entry)
    (unlisted : id ∉ pager.pagesWhere dirtyVsFile) : entry.cleaned = entry ∧
      (pager.disk.file.pages id).map Image.page = some entry.image.page := by
  have places := sound.places id (ne_metaPage_of_cached sound found)
  rw [found] at places
  have fileClean : entry.dirtyVsFile = false := by
    cases dirty : entry.dirtyVsFile with
    | false => rfl
    | true => exact absurd (mem_pagesWhere.mpr ⟨entry, found, dirty⟩) unlisted
  obtain ⟨journalClean, inFile⟩ := places.1 fileClean
  refine ⟨?_, inFile⟩
  obtain ⟨image, dirtyVsFile, dirtyVsJournal, used⟩ := entry
  obtain rfl : dirtyVsFile = false := fileClean
  obtain rfl : dirtyVsJournal = false := journalClean
  rfl

private theorem disk_checkpointEvents (pager : Pager) (page : Page) : pager.disk.applyAll
    (pager.checkpointEvents page) =
      ⟨(pager.disk.applyAll (pager.checkpointWrites (pager.pagesWhere dirtyVsFile))).file.write
        metaPage (some ⟨0, page⟩), []⟩ := by
  rw [checkpointEvents]
  cases pager.syncOnCommit <;> simp [Disk.apply]

/-- After the writes of a checkpoint the data file holds every current page. -/
theorem Sound.pages_checkpointWrites (sound : pager.Sound) :
    ((pager.disk.applyAll (pager.checkpointWrites (pager.pagesWhere dirtyVsFile))).file.pages
      id).map Image.page = pager.held id := by
  rw [Pager.pages_checkpointWrites]
  cases found : pager.cache.find? id with
  | none =>
    rw [held_uncached found]
    simp
  | some entry =>
    rw [held_cached found]
    split
    · rfl
    · rename_i unlisted
      exact (sound.unlisted found unlisted).2

/-- A checkpoint changes no page and leaves nothing unsettled. -/
theorem Sound.checkpoint (sound : pager.Sound) (calm : pager.Calm) (fits : Fits pager.content) :
    ∃ after, pager.checkpoint = (.ok (), after) ∧ after.Settled ∧
      (∀ id entry, after.cache.find? id = some entry → entry.dirtyVsFile = false) ∧
      after.around = pager.around ∧ after.content = pager.content ∧
      ∀ id, id ≠ metaPage → after.held id = pager.held id := by
  obtain ⟨page, encoded⟩ := encode_of_fits fits
  obtain ⟨after, cache, done, becomes, written⟩ := checkpoint_spec calm encoded
  have disk := becomes.disk.trans (disk_checkpointEvents pager page)
  have empty : after.disk.journal = [] := by rw [disk]
  have clean : ∀ id, after.cache.find? id = (pager.cache.find? id).map cleaned := by
    intro id
    rw [becomes.cache, written]
    split
    · rfl
    · rename_i unlisted
      cases found : pager.cache.find? id with
      | none => rfl
      | some entry => rw [Option.map_some, (sound.unlisted found unlisted).1]
  have inFile : ∀ id, id ≠ metaPage → (after.disk.file.pages id).map Image.page = pager.held id := by
    intro id real
    rw [disk, DataFile.pages_write, if_neg real, sound.pages_checkpointWrites]
  have held : ∀ id, id ≠ metaPage → after.held id = pager.held id := by
    intro id real
    cases found : pager.cache.find? id with
    | none =>
      have absent : after.cache.find? id = none := by rw [clean, found]; rfl
      rw [held_uncached absent, inFile id real]
    | some entry =>
      have cached : after.cache.find? id = some entry.cleaned := by rw [clean, found]; rfl
      rw [held_cached cached, held_cached found]
      rfl
  refine ⟨after, done, ⟨⟨⟨[], empty⟩, ?_, ?_, fun id real => ?_, fun _ => ⟨page, ?_, ?_⟩⟩,
    becomes.metaDirty, fun id entry found => ?_⟩, fun id entry found => ?_, becomes.around,
    becomes.content, held⟩
  · rw [disk]
    exact lt_max_of_lt_right (Nat.succ_pos _)
  · rw [clean, sound.noMeta]
    rfl
  · rw [restored_of_no_journal empty]
    cases cached : after.cache.find? id with
    | none => rfl
    | some entry =>
      have current : (after.disk.file.pages id).map Image.page = some entry.image.page := by
        rw [inFile id real, ← held id real, held_cached cached]
      rw [clean] at cached
      obtain ⟨old, -, rfl⟩ := Option.map_eq_some_iff.mp cached
      exact ⟨fun _ => ⟨rfl, current⟩, fun _ => current⟩
  · rw [restored_of_no_journal empty, disk]
    rfl
  · rw [becomes.content]
    exact Meta.decode_encode encoded
  · rw [clean] at found
    obtain ⟨old, -, rfl⟩ := Option.map_eq_some_iff.mp found
    rfl
  · rw [clean] at found
    obtain ⟨old, -, rfl⟩ := Option.map_eq_some_iff.mp found
    rfl

/-! ## Opening -/

/-- A pager just opened is settled, and its pages are those recovery restores. -/
theorem openFiles_spec {around : Surroundings} {capacity : Nat} {syncOnCommit : Bool} {disk : Disk}
    (opened : openFiles around capacity syncOnCommit disk = .ok pager) :
    pager.Settled ∧ pager.around = around ∧ Fits pager.content ∧
      ∀ id, id ≠ metaPage → pager.held id = (disk.durable id).map Image.page := by
  -- Whatever the file, the journal and the cache are empty.
  have settles : ∀ candidate : Pager, candidate.disk.journal = [] → candidate.cache = .empty →
      0 < candidate.disk.file.length → candidate.metaDirtyVsJournal = false →
      (∃ image, candidate.disk.file.pages metaPage = some image ∧
        Meta.decode image.page = .ok candidate.content) → candidate.Settled := by
    intro candidate journal cache notEmpty clean described
    have uncached : ∀ id, candidate.cache.find? id = none := by simp [cache]
    refine ⟨⟨⟨[], journal⟩, notEmpty, uncached _, fun id _ => ?_, fun _ => ?_⟩, clean, ?_⟩
    · rw [uncached, restored_of_no_journal journal]
      rfl
    · obtain ⟨image, stored, decoded⟩ := described
      exact ⟨image.page, by rw [restored_of_no_journal journal, stored]; rfl, decoded⟩
    · simp [uncached]
  have reads : ∀ candidate : Pager, candidate.cache = .empty → ∀ id,
      candidate.held id = (candidate.disk.file.pages id).map Image.page := by
    intro candidate cache id
    exact held_uncached (by simp [cache])
  unfold openFiles at opened
  dsimp only at opened
  split at opened
  · split at opened
    · simp at opened
    · rename_i page encoded
      obtain rfl := Except.ok.inj opened
      refine ⟨settles _ rfl rfl (lt_max_of_lt_right (Nat.succ_pos _)) rfl
        ⟨⟨0, page⟩, rfl, Meta.decode_encode encoded⟩, rfl, Nat.zero_le _, fun id real => ?_⟩
      rw [reads _ rfl]
      dsimp only
      rw [DataFile.pages_write, if_neg real]
      rfl
  · rename_i notEmpty
    split at opened
    · simp at opened
    · rename_i image stored
      split at opened
      · simp at opened
      · rename_i content decoded
        obtain rfl := Except.ok.inj opened
        exact ⟨settles _ rfl rfl (Nat.pos_of_ne_zero notEmpty) rfl ⟨image, stored, decoded⟩, rfl,
          Meta.length_clogPages_of_decode decoded, fun id _ => reads _ rfl id⟩

/-- Opening a database that does not exist yet creates it. -/
theorem openFiles_empty (around : Surroundings) (capacity : Nat) (syncOnCommit : Bool) :
    ∃ pager, openFiles around capacity syncOnCommit .empty = .ok pager ∧ pager.content = .fresh :=
  ⟨_, rfl, rfl⟩

/-- Once nothing is left that only the cache knows, recovery restores every page. -/
theorem Settled.restored_eq (settled : pager.Settled) (real : id ≠ metaPage) : pager.restored id = pager.held id := by
  have places := settled.sound.places id real
  cases found : pager.cache.find? id with
  | none =>
    rw [found] at places
    rw [held_uncached found]
    exact places
  | some entry =>
    rw [found] at places
    rw [held_cached found]
    exact places.2 (settled.pagesKnown id entry found)

/-- Opening the files of a settled pager gives back its pages and its meta record. -/
theorem Settled.reopen (settled : pager.Settled) (around : Surroundings) (capacity : Nat) (syncOnCommit : Bool) :
    ∃ reopened, openFiles around capacity syncOnCommit pager.disk = .ok reopened ∧
      reopened.content = pager.content ∧ ∀ id, id ≠ metaPage → reopened.held id = pager.held id := by
  obtain ⟨page, described, decoded⟩ := settled.sound.metaJournalled settled.metaKnown
  obtain ⟨image, stored, rfl⟩ := Option.map_eq_some_iff.mp described
  have stored : pager.disk.recover.pages metaPage = some image := stored
  have notEmpty : pager.disk.recover.length ≠ 0 :=
    Nat.ne_of_gt (lt_of_lt_of_le settled.sound.notEmpty pager.disk.length_le_recover)
  have opens : ∃ reopened, openFiles around capacity syncOnCommit pager.disk = .ok reopened ∧
      reopened.content = pager.content := by
    unfold openFiles
    dsimp only
    rw [if_neg notEmpty, stored]
    dsimp only
    rw [decoded]
    exact ⟨_, rfl, rfl⟩
  obtain ⟨reopened, opened, content⟩ := opens
  refine ⟨reopened, opened, content, fun id real => ?_⟩
  rw [(openFiles_spec opened).2.2.2 id real]
  exact settled.restored_eq real

end Pager
end Ferrite.Storage
