import Ferrite.Storage.Pager
import Ferrite.Storage.Recovery
import Mathlib.Logic.Relation

/-!
# The moves of a pager

Everything a pager does on its own while no file operation fails is a sequence of
moves: to load or touch a cached page, to journal a page or the meta page, to drop a
page from the cache, to append a record or to sync. No move changes a page. Invariants
are proved move by move; the operations are put together from moves, here and once.
-/

namespace Ferrite.Storage

open Logical OrderedMap

namespace Pager

/-- No file operation fails. -/
def Calm (pager : Pager) : Prop := ∀ turn, pager.around.fault turn = none

/-- What a pager turned into, apart from its counters: the events it caused, and the
cache and meta it was left with. -/
structure Becomes (before after : Pager) (events : List Event) (cache : OrderedMap PageId Entry)
    (content : Meta) (metaDirty : Bool) : Prop where
  around : after.around = before.around
  capacity : after.capacity = before.capacity
  sync : after.syncOnCommit = before.syncOnCommit
  disk : after.disk = before.disk.applyAll events
  events : after.events = before.events ++ events
  cache : after.cache = cache
  content : after.content = content
  metaDirty : after.metaDirtyVsJournal = metaDirty

variable {content : Meta} {before after : Pager}

theorem Becomes.trans {first second third : Pager} {events more : List Event} {cache cache' : OrderedMap PageId Entry}
    {content' : Meta} {metaDirty metaDirty' : Bool} (one : Becomes first second events cache content metaDirty)
    (two : Becomes second third more cache' content' metaDirty') :
    Becomes first third (events ++ more) cache' content' metaDirty' := by
  refine ⟨two.around.trans one.around, two.capacity.trans one.capacity, two.sync.trans one.sync, ?_, ?_,
    two.cache, two.content, two.metaDirty⟩
  · rw [two.disk, one.disk, Disk.applyAll_append]
  · rw [two.events, one.events, List.append_assoc]

theorem Becomes.calm {events : List Event} {cache : OrderedMap PageId Entry} {metaDirty : Bool}
    (becomes : Becomes before after events cache content metaDirty) (calm : before.Calm) : after.Calm := by
  unfold Calm
  rw [becomes.around]
  exact calm

/-- One move; only `allowed` pages are brought into the cache, and pages are journalled
only if the moves belong to an operation that `flushes`. -/
inductive Move (allowed : PageId → Prop) (flushes : Prop) (before after : Pager) : Prop where
  | idle (becomes : Becomes before after [] before.cache before.content before.metaDirtyVsJournal)
  | touch (id : PageId) (entry : Entry) (used : Nat) (found : before.cache.find? id = some entry)
      (becomes : Becomes before after [] (before.cache.insert id { entry with used := used })
        before.content before.metaDirtyVsJournal)
  | load (id : PageId) (image : Image) (used : Nat) (admitted : allowed id)
      (absent : before.cache.find? id = none)
      (stored : before.disk.file.pages id = some image)
      (becomes : Becomes before after [] (before.cache.insert id ⟨image, false, false, used⟩)
        before.content before.metaDirtyVsJournal)
  | journalMeta (lsn : Nat) (page : Page) (flushing : flushes)
      (encoded : before.content.encode = .ok page)
      (becomes : Becomes before after [.appended (.pageImage metaPage ⟨lsn, page⟩)] before.cache before.content false)
  | journalPage (id : PageId) (entry : Entry) (lsn : Nat) (flushing : flushes)
      (found : before.cache.find? id = some entry)
      (becomes : Becomes before after [.appended (.pageImage id ⟨lsn, entry.image.page⟩)] (before.cache.insert id
          { entry with image := ⟨lsn, entry.image.page⟩, dirtyVsJournal := false })
        before.content before.metaDirtyVsJournal)
  | dropClean (id : PageId) (entry : Entry) (found : before.cache.find? id = some entry)
      (journalled : entry.dirtyVsJournal = false) (clean : entry.dirtyVsFile = false)
      (becomes : Becomes before after [] (before.cache.erase id) before.content before.metaDirtyVsJournal)
  | dropDirty (id : PageId) (entry : Entry) (found : before.cache.find? id = some entry)
      (journalled : entry.dirtyVsJournal = false) (dirty : entry.dirtyVsFile = true)
      (becomes : Becomes before after [.evicted id entry.image] (before.cache.erase id)
        before.content before.metaDirtyVsJournal)
  | note (record : Record) (other : record.isImage = false)
      (becomes : Becomes before after [.appended record] before.cache before.content before.metaDirtyVsJournal)
  | sync (becomes : Becomes before after [.journalSynced] before.cache before.content
      before.metaDirtyVsJournal)

abbrev Moves (allowed : PageId → Prop) (flushes : Prop) : Pager → Pager → Prop :=
  Relation.ReflTransGen (Move allowed flushes)

variable {allowed : PageId → Prop} {flushes : Prop}

private theorem Move.around (move : Move allowed flushes before after) : after.around = before.around := by
  cases move <;> exact Becomes.around ‹_›

private theorem Moves.around (moves : Moves allowed flushes before after) : after.around = before.around := by
  induction moves with
  | refl => rfl
  | tail _ move ih => exact move.around.trans ih

theorem Moves.calm (moves : Moves allowed flushes before after) (calm : before.Calm) : after.Calm := by
  unfold Calm
  rw [moves.around]
  exact calm

/-- The commit-log directory fits into the meta page. -/
def Fits (content : Meta) : Prop := content.clogPages.length ≤ clogDirectoryCapacity

instance (content : Meta) : Decidable (Fits content) :=
  inferInstanceAs (Decidable (content.clogPages.length ≤ clogDirectoryCapacity))

theorem encode_of_fits (fits : Fits content) : ∃ page, content.encode = .ok page := ⟨_, if_neg (not_lt.mpr fits)⟩

section

variable {pager : Pager}

/-! ## Appending -/

variable {first second third before after : Pager} {id : PageId}

private theorem append_calm (calm : pager.Calm) (record : Record) :
    pager.append record = (.ok (), { pager.turn.emit (.appended record) with
      journalLen := pager.journalLen + record.frameLength }) := by
  rw [append, nextFault, calm]

theorem append_spec (calm : pager.Calm) (record : Record) : ∃ after, pager.append record = (.ok (), after) ∧
      Becomes pager after [.appended record] pager.cache pager.content pager.metaDirtyVsJournal :=
  ⟨_, append_calm calm record, rfl, rfl, rfl, rfl, rfl, rfl, rfl, rfl⟩

/-- All that happened is that page images were appended. -/
def AppendsImages (before after : Pager) : Prop :=
  ∃ images, after.events = before.events ++ images ∧ ∀ event ∈ images, event.isImage = true

private theorem AppendsImages.refl (pager : Pager) : AppendsImages pager pager
    := ⟨[], (List.append_nil _).symm, by simp⟩

private theorem AppendsImages.trans (one : AppendsImages first second) (two : AppendsImages second third) :
    AppendsImages first third := by
  obtain ⟨images, events, all⟩ := one
  obtain ⟨more, events', all'⟩ := two
  refine ⟨images ++ more, by rw [events', events, List.append_assoc], fun event member => ?_⟩
  rcases List.mem_append.mp member with early | late
  · exact all event early
  · exact all' event late

private theorem flushMetaToJournal_spec (flushing : flushes) (calm : pager.Calm) (fits : Fits pager.content) :
    ∃ after, pager.flushMetaToJournal = (.ok (), after) ∧ Moves allowed flushes pager after ∧
      AppendsImages pager after ∧ after.cache = pager.cache ∧ after.content = pager.content ∧
      after.metaDirtyVsJournal = false := by
  unfold flushMetaToJournal
  cases dirty : pager.metaDirtyVsJournal with
  | false => exact ⟨pager, by simp, .refl, .refl pager, rfl, rfl, dirty⟩
  | true =>
    obtain ⟨page, encoded⟩ := encode_of_fits fits
    have calmNext : pager.takeLsn.2.Calm := calm
    rw [if_pos rfl, encodedMetaPage, encoded]
    dsimp only
    rw [append_calm calmNext]
    refine ⟨_, rfl, .single (.journalMeta pager.nextLsn page flushing encoded ?_),
      ⟨[_], rfl, by simp [Event.isImage]⟩, rfl, rfl, rfl⟩
    exact ⟨rfl, rfl, rfl, rfl, rfl, rfl, rfl, rfl⟩

/-! ## Group flush -/

/-- The same pages cached, up to sequence numbers and the journal flag. -/
def SamePages (before after : Pager) : Prop :=
  ∀ id, (after.cache.find? id).map (fun entry => (entry.image.page, entry.dirtyVsFile, entry.used)) =
    (before.cache.find? id).map fun entry => (entry.image.page, entry.dirtyVsFile, entry.used)

private theorem SamePages.trans (one : SamePages first second) (two : SamePages second third) :
    SamePages first third := fun id => (two id).trans (one id)

private theorem SamePages.cached (same : SamePages before after) {entry : Entry}
    (found : before.cache.find? id = some entry) :
    ∃ entry', after.cache.find? id = some entry' ∧ entry'.image.page = entry.image.page ∧
      entry'.dirtyVsFile = entry.dirtyVsFile ∧ entry'.used = entry.used := by
  have equal := same id
  rw [found, Option.map_some] at equal
  obtain ⟨entry', found', pairs⟩ := Option.map_eq_some_iff.mp equal
  simp only [Prod.mk.injEq] at pairs
  exact ⟨entry', found', pairs⟩

private theorem SamePages.absent (same : SamePages before after) (absent : before.cache.find? id = none) :
    after.cache.find? id = none := by
  have equal := same id
  rw [absent, Option.map_none] at equal
  exact Option.map_eq_none_iff.mp equal

private theorem journalPage_spec (flushing : flushes) (calm : pager.Calm) {entry : Entry}
    (found : pager.cache.find? id = some entry) :
    ∃ after, pager.journalPage id = (.ok (), after) ∧ Move allowed flushes pager after ∧
      AppendsImages pager after ∧ after.content = pager.content ∧ after.metaDirtyVsJournal = pager.metaDirtyVsJournal ∧
      after.cache = pager.cache.insert id
        { entry with image := ⟨pager.nextLsn, entry.image.page⟩, dirtyVsJournal := false } := by
  have foundNext : pager.takeLsn.2.cache.find? id = some entry := found
  unfold journalPage
  dsimp only
  rw [foundNext]
  dsimp only
  rw [append_calm (by exact calm)]
  refine ⟨_, rfl, .journalPage id entry pager.nextLsn flushing found ?_,
    ⟨[_], rfl, by simp [Event.isImage]⟩, rfl, rfl, rfl⟩
  exact ⟨rfl, rfl, rfl, rfl, rfl, rfl, rfl, rfl⟩

private theorem journalPages_spec (flushing : flushes) (calm : pager.Calm) {ids : List PageId}
    (cached : ∀ id ∈ ids, (pager.cache.find? id).isSome = true) :
    ∃ after, pager.journalPages ids = (.ok (), after) ∧ Moves allowed flushes pager after ∧
      AppendsImages pager after ∧ after.content = pager.content ∧ after.metaDirtyVsJournal = pager.metaDirtyVsJournal ∧
      SamePages pager after ∧
      ∀ id entry, after.cache.find? id = some entry → entry.dirtyVsJournal = true →
        id ∉ ids ∧ pager.cache.find? id = some entry := by
  induction ids generalizing pager with
  | nil => exact ⟨pager, rfl, .refl, .refl pager, rfl, rfl, fun _ => rfl, fun _ _ held _ => ⟨List.not_mem_nil, held⟩⟩
  | cons id rest ih =>
    obtain ⟨entry, found⟩ := Option.isSome_iff_exists.mp (cached id List.mem_cons_self)
    obtain ⟨next, result, move, images, sameContent, sameMeta, cache⟩ := journalPage_spec flushing calm found
    have cachedNext : ∀ other ∈ rest, (next.cache.find? other).isSome = true := by
      intro other member
      rw [cache, find?_insert]
      split
      · rfl
      · exact cached other (List.mem_cons_of_mem _ member)
    have samePages : SamePages pager next := by
      intro other
      rw [cache, find?_insert]
      split
      · rename_i here
        rw [here, found]
        rfl
      · rfl
    obtain ⟨after, results, moves, more, content, metaDirty, pages, clean⟩ :=
      ih (Moves.calm (.single move) calm) cachedNext
    refine ⟨after, ?_, moves.head move, images.trans more, content.trans sameContent, metaDirty.trans sameMeta,
      samePages.trans pages, ?_⟩
    · rw [journalPages, result]
      exact results
    · intro other held isHeld dirty
      obtain ⟨notRest, before⟩ := clean other held isHeld dirty
      rw [cache, find?_insert] at before
      split at before
      · obtain rfl := Option.some.inj before
        simp at dirty
      · rename_i different
        exact ⟨by simp [different, notRest], before⟩

theorem mem_pagesWhere {flag : Entry → Bool} :
    id ∈ pager.pagesWhere flag ↔ ∃ entry, pager.cache.find? id = some entry ∧ flag entry = true := by
  unfold pagesWhere
  rw [(pager.around.perm _ _).mem_iff, List.mem_map]
  constructor
  · rintro ⟨⟨other, entry⟩, member, rfl⟩
    obtain ⟨listed, flagged⟩ := List.mem_filter.mp member
    exact ⟨entry, (mem_entries_iff _).mp listed, flagged⟩
  · rintro ⟨entry, found, flagged⟩
    exact ⟨(id, entry), List.mem_filter.mpr ⟨(mem_entries_iff _).mpr found, flagged⟩, rfl⟩

/-- After a group flush the journal knows every page and the meta page. -/
theorem journalDirtyPages_spec (flushing : flushes) (calm : pager.Calm) (fits : Fits pager.content) :
    ∃ after, pager.journalDirtyPages = (.ok (), after) ∧ Moves allowed flushes pager after ∧
      AppendsImages pager after ∧ after.content = pager.content ∧ after.metaDirtyVsJournal = false ∧ SamePages pager after ∧
      ∀ id entry, after.cache.find? id = some entry → entry.dirtyVsJournal = false := by
  obtain ⟨next, flushed, moves, images, cache, content, metaDirty⟩ := flushMetaToJournal_spec flushing calm fits
  have cached : ∀ id ∈ next.pagesWhere Entry.dirtyVsJournal, (next.cache.find? id).isSome = true := by
    intro id member
    obtain ⟨entry, found, -⟩ := mem_pagesWhere.mp member
    simp [found]
  obtain ⟨after, journalled, more, images', sameContent, sameMeta, pages, clean⟩ :=
    journalPages_spec flushing (moves.calm calm) cached
  refine ⟨after, ?_, moves.trans more, images.trans images', sameContent.trans content, sameMeta.trans metaDirty, ?_, ?_⟩
  · rw [journalDirtyPages, flushed]
    exact journalled
  · intro id
    rw [pages id, cache]
  · intro id entry found
    cases dirty : entry.dirtyVsJournal with
    | false => rfl
    | true =>
      obtain ⟨notListed, before⟩ := clean id entry found dirty
      exact absurd (mem_pagesWhere.mpr ⟨entry, before, dirty⟩) notListed

/-! ## Eviction -/

private theorem oldest_mem {entries : List (PageId × Entry)} {victim : PageId × Entry}
    (isOldest : oldest entries = some victim) : victim ∈ entries := by
  induction entries generalizing victim with
  | nil => simp [oldest] at isOldest
  | cons head rest ih =>
    rw [oldest] at isOldest
    split at isOldest
    · exact Option.some.inj isOldest ▸ List.mem_cons_self
    · rename_i other found
      split at isOldest
      · exact Option.some.inj isOldest ▸ List.mem_cons_self
      · exact Option.some.inj isOldest ▸ List.mem_cons_of_mem _ (ih found)

/-- The journal knows the page that would be evicted. -/
def victimKnown (pager : Pager) : Bool :=
  match oldest pager.cache.entries with
  | none => true
  | some victim => !victim.2.dirtyVsJournal

/-- No round of eviction meets a page the journal does not know. -/
def roundsQuiet (pager : Pager) : Nat → Bool
  | 0 => true
  | rounds + 1 =>
    decide (pager.cache.entries.length < pager.capacity) || (pager.victimKnown && pager.evictOne.2.roundsQuiet rounds)

def roomQuiet (pager : Pager) : Bool := pager.roundsQuiet pager.cache.entries.length

/-- Access to a page evicts no page the journal does not know. -/
def accessQuiet (pager : Pager) (id : PageId) : Bool := (pager.cache.find? id).isSome || pager.roomQuiet

/-- Eviction makes room: it brings no page into the cache. -/
structure Evicts (allowed : PageId → Prop) (flushes : Prop) (before after : Pager) : Prop where
  moves : Moves allowed flushes before after
  content : after.content = before.content
  absent : ∀ id, before.cache.find? id = none → after.cache.find? id = none

private theorem Evicts.refl (pager : Pager) : Evicts allowed flushes pager pager := ⟨.refl, rfl, fun _ none => none⟩

private theorem Evicts.trans (one : Evicts allowed flushes first second) (two : Evicts allowed flushes second third) :
    Evicts allowed flushes first third :=
  ⟨one.moves.trans two.moves, two.content.trans one.content, fun id none => two.absent id (one.absent id none)⟩

private theorem evictOne_spec (may : pager.victimKnown = true ∨ flushes) (calm : pager.Calm)
    (fits : Fits pager.content) :
    ∃ after, pager.evictOne = (.ok (), after) ∧ Evicts allowed flushes pager after := by
  unfold evictOne
  cases chosen : oldest pager.cache.entries with
  | none => exact ⟨pager, rfl, .refl pager⟩
  | some victim =>
    obtain ⟨id, entry⟩ := victim
    have found := (mem_entries_iff _).mp (oldest_mem chosen)
    -- The page is known to the journal once the flush, if any, is done.
    have ready : ∃ next entry', (if entry.dirtyVsJournal then pager.journalDirtyPages
          else (.ok (), pager)) = (.ok (), next) ∧ Evicts allowed flushes pager next ∧
        next.cache.find? id = some entry' ∧ entry'.dirtyVsJournal = false := by
      cases dirty : entry.dirtyVsJournal with
      | false => exact ⟨pager, entry, rfl, .refl pager, found, dirty⟩
      | true =>
        have flushing : flushes := by
          refine may.resolve_left ?_
          simp [victimKnown, chosen, dirty]
        obtain ⟨next, result, moves, -, content, -, pages, clean⟩ := journalDirtyPages_spec flushing calm fits
        obtain ⟨entry', found', -⟩ := pages.cached found
        exact ⟨next, entry', result, ⟨moves, content, fun _ => pages.absent⟩, found', clean id entry' found'⟩
    obtain ⟨next, entry', result, evicts, found', journalled⟩ := ready
    have erased : ∀ other, next.cache.find? other = none → (next.cache.erase id).find? other = none := by
      intro other none
      rw [find?_erase, none, ite_self]
    dsimp only
    rw [result, Answer.andThen_ok, found']
    dsimp only
    cases dirty : entry'.dirtyVsFile with
    | false =>
      refine ⟨_, rfl, evicts.trans ⟨.single (.dropClean id entry' found' journalled dirty ?_), rfl, erased⟩⟩
      exact ⟨rfl, rfl, rfl, rfl, (List.append_nil _).symm, rfl, rfl, rfl⟩
    | true =>
      have calmNext := evicts.moves.calm calm
      rw [if_pos rfl, writePageToFile, nextFault, calmNext]
      refine ⟨_, rfl, evicts.trans ⟨.single (.dropDirty id entry' found' journalled dirty ?_), rfl, erased⟩⟩
      exact ⟨rfl, rfl, rfl, rfl, rfl, rfl, rfl, rfl⟩

private theorem evictRounds_spec (rounds : Nat) (may : pager.roundsQuiet rounds = true ∨ flushes)
    (calm : pager.Calm) (fits : Fits pager.content) :
    ∃ after, pager.evictRounds rounds = (.ok (), after) ∧ Evicts allowed flushes pager after := by
  induction rounds generalizing pager with
  | zero => exact ⟨pager, rfl, .refl pager⟩
  | succ rounds ih =>
    rw [evictRounds]
    split
    · exact ⟨pager, rfl, .refl pager⟩
    · rename_i full
      rw [roundsQuiet, decide_eq_false full, Bool.false_or, Bool.and_eq_true] at may
      obtain ⟨next, result, evicts⟩ := evictOne_spec (may.imp_left And.left) calm fits
      rw [result] at may
      obtain ⟨after, results, more⟩ := ih (may.imp_left And.right) (evicts.moves.calm calm) (evicts.content ▸ fits)
      rw [result]
      exact ⟨after, results, evicts.trans more⟩

theorem evictIfNeeded_spec (allowed : PageId → Prop) (may : pager.roomQuiet = true ∨ flushes) (calm : pager.Calm)
    (fits : Fits pager.content) : ∃ after, pager.evictIfNeeded = (.ok (), after) ∧ Evicts allowed flushes pager after :=
  evictRounds_spec _ may calm fits

/-! ## Page access -/

theorem becomes_counters (around : after.around = before.around) (capacity : after.capacity = before.capacity)
    (sync : after.syncOnCommit = before.syncOnCommit) (disk : after.disk = before.disk)
    (events : after.events = before.events) :
    Becomes before after [] after.cache after.content after.metaDirtyVsJournal :=
  ⟨around, capacity, sync, disk, events.trans (List.append_nil _).symm, rfl, rfl, rfl⟩

/-- A page is cached after the call, or neither the cache nor the data file has it. -/
theorem ensureCached_spec (allowed : PageId → Prop) (calm : pager.Calm) (fits : Fits pager.content)
    (admitted : allowed id) (may : pager.accessQuiet id = true ∨ flushes) :
    ∃ after, Moves allowed flushes pager after ∧ after.content = pager.content ∧
      ((pager.ensureCached id = (.ok (), after) ∧ ∃ entry, after.cache.find? id = some entry) ∨
        ((∃ e, pager.ensureCached id = (.error e, after)) ∧ after.cache.find? id = none ∧
          after.disk.file.pages id = none)) := by
  unfold ensureCached
  cases cached : pager.cache.find? id with
  | some entry => exact ⟨pager, .refl, rfl, Or.inl ⟨rfl, entry, cached⟩⟩
  | none =>
    rw [accessQuiet, cached, Option.isSome_none, Bool.false_or] at may
    obtain ⟨next, result, evicts⟩ := evictIfNeeded_spec allowed may calm fits
    have absent := evicts.absent id cached
    have calmNext := evicts.moves.calm calm
    rw [result, Answer.andThen_ok]
    dsimp only [Option.isSome_none]
    rw [if_neg Bool.false_ne_true, loadFromFile, nextFault, calmNext]
    cases stored : next.disk.file.pages id with
    | some image =>
      refine ⟨next.turn.tick.2.setEntry id ⟨image, false, false, next.clock + 1⟩,
        evicts.moves.tail (.load id image (next.clock + 1) admitted absent stored ?_), evicts.content,
        Or.inl ⟨rfl, ⟨image, false, false, next.clock + 1⟩, ?_⟩⟩
      · exact becomes_counters rfl rfl rfl rfl rfl
      · simp [setEntry]
    | none =>
      refine ⟨next.turn, evicts.moves.tail (.idle (becomes_counters rfl rfl rfl rfl rfl)),
        evicts.content, Or.inr ⟨?_, absent, stored⟩⟩
      dsimp only
      split
      · exact ⟨_, rfl⟩
      · exact ⟨_, rfl⟩

/-- The entry of a page is at hand, or neither the cache nor the data file has it. -/
theorem entryOf_spec (allowed : PageId → Prop) (calm : pager.Calm) (fits : Fits pager.content) (admitted : allowed id)
    (may : pager.accessQuiet id = true ∨ flushes) :
    ∃ after, Moves allowed flushes pager after ∧ after.content = pager.content ∧
      ((∃ entry used, pager.entryOf id = (.ok (entry, used), after) ∧ after.cache.find? id = some entry) ∨
        ((∃ e, pager.entryOf id = (.error e, after)) ∧ after.cache.find? id = none ∧
          after.disk.file.pages id = none)) := by
  obtain ⟨next, moves, content, outcome⟩ := ensureCached_spec allowed calm fits admitted may
  unfold entryOf
  rcases outcome with ⟨result, entry, found⟩ | ⟨⟨e, failed⟩, absent, noFile⟩
  · have foundNext : next.tick.2.cache.find? id = some entry := found
    rw [result, Answer.andThen_ok]
    dsimp only
    rw [foundNext]
    refine ⟨next.tick.2, moves.tail (.idle ?_), content, Or.inl ⟨entry, next.tick.1, rfl, found⟩⟩
    exact becomes_counters rfl rfl rfl rfl rfl
  · rw [failed]
    exact ⟨next, moves, content, Or.inr ⟨⟨e, rfl⟩, absent, noFile⟩⟩

theorem withPage_spec (allowed : PageId → Prop) (calm : pager.Calm) (fits : Fits pager.content)
    (admitted : allowed id) (may : pager.accessQuiet id = true ∨ flushes) :
    ∃ after, Moves allowed flushes pager after ∧ after.content = pager.content ∧
      ((∃ entry, pager.withPage id = (.ok entry.image.page, after) ∧ after.cache.find? id = some entry) ∨
        ((∃ e, pager.withPage id = (.error e, after)) ∧ after.cache.find? id = none ∧
          after.disk.file.pages id = none)) := by
  obtain ⟨next, moves, content, outcome⟩ := entryOf_spec allowed calm fits admitted may
  unfold withPage
  rcases outcome with ⟨entry, used, result, found⟩ | ⟨⟨e, failed⟩, absent, noFile⟩
  · rw [result]
    refine ⟨next.setEntry id { entry with used := used }, moves.tail (.touch id entry used found ?_),
      content, Or.inl ⟨{ entry with used := used }, rfl, ?_⟩⟩
    · exact becomes_counters rfl rfl rfl rfl rfl
    · simp [setEntry]
  · rw [failed]
    exact ⟨next, moves, content, Or.inr ⟨⟨e, rfl⟩, absent, noFile⟩⟩

/-! ## Commit and abort -/

theorem append_note (calm : pager.Calm) {record : Record} (other : record.isImage = false) :
    ∃ after, pager.append record = (.ok (), after) ∧ Move allowed flushes pager after ∧
      after.cache = pager.cache ∧ after.content = pager.content ∧
      after.metaDirtyVsJournal = pager.metaDirtyVsJournal := by
  obtain ⟨after, done, becomes⟩ := append_spec calm record
  exact ⟨after, done, .note record other becomes, becomes.cache, becomes.content, becomes.metaDirty⟩

theorem syncJournal_becomes (calm : pager.Calm) : ∃ after, pager.syncJournal = (.ok (), after) ∧
      Becomes pager after (if pager.syncOnCommit then [.journalSynced] else []) pager.cache
        pager.content pager.metaDirtyVsJournal := by
  unfold syncJournal
  split
  · rw [nextFault, calm]
    exact ⟨_, rfl, rfl, rfl, rfl, rfl, rfl, rfl, rfl, rfl⟩
  · exact ⟨pager, rfl, becomes_counters rfl rfl rfl rfl rfl⟩

private theorem syncJournal_spec (calm : pager.Calm) :
    ∃ after, pager.syncJournal = (.ok (), after) ∧ Move allowed flushes pager after ∧
      after.cache = pager.cache ∧ after.content = pager.content ∧
      after.metaDirtyVsJournal = pager.metaDirtyVsJournal := by
  obtain ⟨after, done, becomes⟩ := syncJournal_becomes calm
  refine ⟨after, done, ?_, becomes.cache, becomes.content, becomes.metaDirty⟩
  cases sync : pager.syncOnCommit with
  | true => exact .sync (by simpa [sync] using becomes)
  | false => exact .idle (by simpa [sync] using becomes)

/-- After a commit the journal knows every page and the meta page. -/
theorem commitToJournal_spec (flushing : flushes) (calm : pager.Calm) (fits : Fits pager.content) (txn : TxnId) :
    ∃ after, pager.commitToJournal txn = (.ok (), after) ∧ Moves allowed flushes pager after ∧
      after.content = pager.content ∧ after.metaDirtyVsJournal = false ∧ SamePages pager after ∧
      ∀ id entry, after.cache.find? id = some entry → entry.dirtyVsJournal = false := by
  obtain ⟨flushed, result, moves, -, content, metaDirty, pages, clean⟩ := journalDirtyPages_spec flushing calm fits
  have isOther : (Record.commit txn).isImage = false := rfl
  obtain ⟨noted, appended, move, cache, sameContent, sameMeta⟩ := append_note (moves.calm calm) isOther
  obtain ⟨synced, done, last, cache', sameContent', sameMeta'⟩ := syncJournal_spec (Moves.calm (moves.tail move) calm)
  refine ⟨synced, ?_, (moves.tail move).tail last, ?_, ?_, ?_, ?_⟩
  · rw [commitToJournal, result, Answer.andThen_ok, appended]
    exact done
  · rw [sameContent', sameContent, content]
  · rw [sameMeta', sameMeta, metaDirty]
  · intro id
    rw [cache', cache]
    exact pages id
  · rw [cache', cache]
    exact clean

end

end Pager
end Ferrite.Storage
