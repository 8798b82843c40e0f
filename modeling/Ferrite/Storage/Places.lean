import Ferrite.Storage.PagerMoves

/-!
# The places a page lives in

A page can be in the cache, in the journal, in the data file, or in several of them.
`Pager.held` is its current content and `Pager.restored` what recovery would bring
back. `Sound` says how the places agree through the two dirty flags: a page the journal
knows is what recovery restores, a page the file knows is what the file holds.
-/

namespace Ferrite.Storage

open Logical Disk

namespace Pager

/-- The current content of a page, wherever it lives. -/
def held (pager : Pager) (id : PageId) : Option Page :=
  match pager.cache.find? id with
  | some entry => some entry.image.page
  | none => (pager.disk.file.pages id).map Image.page

/-- What recovery would restore as the content of a page. -/
def restored (pager : Pager) (id : PageId) : Option Page := (pager.disk.durable id).map Image.page

/-- How the places a page can live agree: what the data file knows it holds, what the
journal knows recovery restores, and a page not in the cache is in the file alone. -/
def PlacesAgree (cached : Option Entry) (inFile restored : Option Page) : Prop :=
  match cached with
  | none => restored = inFile
  | some entry =>
    (entry.dirtyVsFile = false → entry.dirtyVsJournal = false ∧ inFile = some entry.image.page) ∧
    (entry.dirtyVsJournal = false → restored = some entry.image.page)

/-- The pager's invariant. -/
structure Sound (pager : Pager) : Prop where
  whole : ∃ records, pager.disk.Whole records
  notEmpty : 0 < pager.disk.file.length
  /-- The meta page is never cached. -/
  noMeta : pager.cache.find? metaPage = none
  places : ∀ id, id ≠ metaPage → PlacesAgree (pager.cache.find? id)
    ((pager.disk.file.pages id).map Image.page) (pager.restored id)
  metaJournalled : pager.metaDirtyVsJournal = false →
    ∃ page, pager.restored metaPage = some page ∧ Meta.decode page = .ok pager.content

variable {before after : Pager} {flushes : Prop}

/-! ## Moves keep the pager sound -/

variable {pager : Pager} {id : PageId} {entry : Entry} {cache : OrderedMap PageId Entry}

theorem held_cached (found : pager.cache.find? id = some entry) : pager.held id = some entry.image.page := by
  rw [held, found]

/-- A page that is not cached is held in the data file. -/
theorem held_uncached (absent : pager.cache.find? id = none) :
    pager.held id = (pager.disk.file.pages id).map Image.page := by
  rw [held, absent]

/-- What a move does to one page. -/
structure Carries (before after : Pager) (id : PageId) : Prop where
  held : after.held id = before.held id
  agree : PlacesAgree (after.cache.find? id) ((after.disk.file.pages id).map Image.page) (after.restored id)

/-- A page with the same entry, the same page in the file and the same restored page. -/
theorem carries_same (sound : before.Sound) (real : id ≠ metaPage)
    (cache : after.cache.find? id = before.cache.find? id) (file : after.disk.file.pages id = before.disk.file.pages id)
    (restored : after.restored id = before.restored id) : Carries before after id := by
  refine ⟨?_, ?_⟩
  · rw [held, held, cache, file]
  · rw [cache, file, restored]
    exact sound.places id real

private theorem carries_of_one (other : PageId) (sound : before.Sound) (real : id ≠ metaPage)
    (cache : ∀ probe, probe ≠ other → after.cache.find? probe = before.cache.find? probe)
    (file : ∀ probe, probe ≠ other → after.disk.file.pages probe = before.disk.file.pages probe)
    (restored : ∀ probe, probe ≠ other → after.restored probe = before.restored probe)
    (here : other ≠ metaPage → Carries before after other) : Carries before after id := by
  by_cases same : id = other
  · subst same
    exact here real
  · exact carries_same sound real (cache id same) (file id same) (restored id same)

/-- A move that leaves the files alone and touches one page of the cache only. -/
theorem carries_of_disk_eq (other : PageId) (sound : before.Sound) (real : id ≠ metaPage) (disk : after.disk = before.disk)
    (cache : ∀ probe, probe ≠ other → after.cache.find? probe = before.cache.find? probe)
    (here : PlacesAgree (before.cache.find? other) ((before.disk.file.pages other).map Image.page) (before.restored other) →
      after.held other = before.held other ∧
        PlacesAgree (after.cache.find? other) ((before.disk.file.pages other).map Image.page) (before.restored other)) :
    Carries before after id := by
  have restored (probe : PageId) : after.restored probe = before.restored probe := by rw [Pager.restored, Pager.restored, disk]
  refine carries_of_one other sound real cache (fun _ _ => by rw [disk]) (fun probe _ => restored probe) fun realOther => ?_
  obtain ⟨held, agree⟩ := here (sound.places other realOther)
  exact ⟨held, by rw [disk, restored]; exact agree⟩

private theorem Becomes.restored_eq {events : List Event} {content : Meta} {metaDirty : Bool}
    (becomes : Becomes before after events cache content metaDirty) (id : PageId) :
    after.restored id = ((before.disk.applyAll events).durable id).map Image.page := by
  rw [restored, becomes.disk]

private theorem find?_insert_of_ne {probe : PageId} (other : probe ≠ id) :
    (cache.insert id entry).find? probe = cache.find? probe := by
  rw [OrderedMap.find?_insert, if_neg other]

private theorem find?_insert_self : (cache.insert id entry).find? id = some entry := by
  rw [OrderedMap.find?_insert, if_pos rfl]

private theorem find?_erase_of_ne {probe : PageId} (other : probe ≠ id) :
    (cache.erase id).find? probe = cache.find? probe := by
  rw [OrderedMap.find?_erase, if_neg other]

private theorem find?_erase_self : (cache.erase id).find? id = none := by rw [OrderedMap.find?_erase, if_pos rfl]

private theorem Move.carries (move : Move (· ≠ metaPage) flushes before after) (sound : before.Sound)
    (real : id ≠ metaPage) :
    Carries before after id := by
  obtain ⟨records, whole⟩ := sound.whole
  cases move with
  | idle becomes =>
    exact carries_same sound real (by rw [becomes.cache]) (by rw [becomes.disk]; rfl) (becomes.restored_eq id)
  | touch other entry used found becomes =>
    refine carries_of_disk_eq other sound real becomes.disk (fun probe ne => ?_) fun agree => ?_
    · rw [becomes.cache, find?_insert_of_ne ne]
    · have isEntry : after.cache.find? other = some { entry with used := used } := by
        rw [becomes.cache, find?_insert_self]
      rw [found] at agree
      exact ⟨by rw [held_cached found, held_cached isEntry], isEntry ▸ agree⟩
  | load other image used admitted absent stored becomes =>
    refine carries_of_disk_eq other sound real becomes.disk (fun probe ne => ?_) fun agree => ?_
    · rw [becomes.cache, find?_insert_of_ne ne]
    · have isEntry : after.cache.find? other = some ⟨image, false, false, used⟩ := by
        rw [becomes.cache, find?_insert_self]
      rw [absent, stored] at agree
      refine ⟨by rw [held_uncached absent, held_cached isEntry, stored]; rfl, ?_⟩
      rw [isEntry, stored]
      exact ⟨fun _ => ⟨rfl, rfl⟩, fun _ => agree⟩
  | journalMeta lsn page _ encoded becomes =>
    refine carries_same sound real (by rw [becomes.cache]) (by rw [becomes.disk]; rfl) ?_
    rw [becomes.restored_eq, applyAll_cons, applyAll_nil, durable_append_image whole, if_neg real]
    rfl
  | journalPage other entry lsn _ found becomes =>
    have file : ∀ probe, after.disk.file.pages probe = before.disk.file.pages probe :=
      fun probe => by rw [becomes.disk]; rfl
    have restored : ∀ probe, after.restored probe =
        if probe = other then some entry.image.page else before.restored probe := by
      intro probe
      rw [becomes.restored_eq, applyAll_cons, applyAll_nil, durable_append_image whole]
      split <;> rfl
    refine carries_of_one other sound real (fun probe ne => ?_) (fun probe _ => file probe)
      (fun probe ne => by rw [restored, if_neg ne]) fun realOther => ?_
    · rw [becomes.cache, find?_insert_of_ne ne]
    · have agree := sound.places other realOther
      have isEntry : after.cache.find? other = some
          { entry with image := ⟨lsn, entry.image.page⟩, dirtyVsJournal := false } := by
        rw [becomes.cache, find?_insert_self]
      rw [found] at agree
      refine ⟨by rw [held_cached found, held_cached isEntry], ?_⟩
      rw [isEntry, file, restored, if_pos rfl]
      exact ⟨fun clean => ⟨rfl, (agree.1 clean).2⟩, fun _ => rfl⟩
  | dropClean other entry found journalled clean becomes =>
    refine carries_of_disk_eq other sound real becomes.disk (fun probe ne => ?_) fun agree => ?_
    · rw [becomes.cache, find?_erase_of_ne ne]
    · have absent : after.cache.find? other = none := by rw [becomes.cache, find?_erase_self]
      have disk : after.disk = before.disk := becomes.disk
      rw [found] at agree
      have inFile := (agree.1 clean).2
      refine ⟨by rw [held_cached found, held_uncached absent, disk, inFile], ?_⟩
      rw [absent, inFile]
      exact agree.2 journalled
  | dropDirty other entry found journalled dirty becomes =>
    have disk : after.disk = before.disk.apply (.written other (some entry.image)) := becomes.disk
    refine carries_of_one other sound real (fun probe ne => ?_) (fun probe ne => ?_)
      (fun probe ne => ?_) fun realOther => ?_
    · rw [becomes.cache, find?_erase_of_ne ne]
    · rw [disk]
      simp [apply, ne]
    · rw [restored, disk, durable_write whole, if_neg ne]
      rfl
    · have agree := sound.places other realOther
      have absent : after.cache.find? other = none := by rw [becomes.cache, find?_erase_self]
      have inFile : (after.disk.file.pages other).map Image.page = some entry.image.page := by
        rw [disk]
        simp [apply]
      rw [found] at agree
      obtain ⟨old, isOld, samePage⟩ := Option.map_eq_some_iff.mp (agree.2 journalled)
      refine ⟨by rw [held_cached found, held_uncached absent, inFile], ?_⟩
      rw [absent, inFile, restored, disk, durable_write_same whole isOld samePage, isOld,
        Option.map_some, samePage]
      rfl
  | note record other becomes =>
    refine carries_same sound real (by rw [becomes.cache]) (by rw [becomes.disk]; rfl) ?_
    rw [becomes.restored_eq, applyAll_cons, applyAll_nil, durable_append_other whole other]
    rfl
  | sync becomes =>
    exact carries_same sound real (by rw [becomes.cache]) (by rw [becomes.disk]; rfl) (becomes.restored_eq id)

theorem ne_metaPage_of_cached (sound : before.Sound) (found : before.cache.find? id = some entry) : id ≠ metaPage := by
  rintro rfl
  simp [sound.noMeta] at found

/-- The part of the invariant that is not about single pages, for a move that leaves
the meta page of the files and the journal's view of it alone. -/
theorem Sound.of_carries (sound : before.Sound) (whole : ∃ records, after.disk.Whole records)
    (grows : before.disk.file.length ≤ after.disk.file.length) (noMeta : after.cache.find? metaPage = none)
    (carries : ∀ id, id ≠ metaPage → Carries before after id) (content : after.content = before.content)
    (metaDirty : after.metaDirtyVsJournal = before.metaDirtyVsJournal)
    (restored : after.restored metaPage = before.restored metaPage) : after.Sound := by
  refine ⟨whole, lt_of_lt_of_le sound.notEmpty grows, noMeta, fun id real => (carries id real).agree, ?_⟩
  rw [metaDirty, content, restored]
  exact sound.metaJournalled

private theorem Sound.of_disk_eq {events : List Event} (sound : before.Sound)
    (becomes : Becomes before after events cache before.content before.metaDirtyVsJournal)
    (disk : after.disk = before.disk) (noMeta : cache.find? metaPage = none)
    (carries : ∀ id, id ≠ metaPage → Carries before after id) : after.Sound ∧ after.content = before.content := by
  refine ⟨sound.of_carries ?_ ?_ ?_ carries becomes.content becomes.metaDirty ?_, becomes.content⟩
  · rw [disk]
    exact sound.whole
  · rw [disk]
  · rw [becomes.cache]
    exact noMeta
  · rw [restored, restored, disk]

private theorem Sound.move (sound : before.Sound) (move : Move (· ≠ metaPage) flushes before after) :
    after.Sound ∧ after.content = before.content := by
  have carries : ∀ id, id ≠ metaPage → Carries before after id := fun _ => move.carries sound
  have ⟨records, whole⟩ := sound.whole
  cases move with
  | idle becomes => exact sound.of_disk_eq becomes becomes.disk sound.noMeta carries
  | touch other entry used found becomes =>
    refine sound.of_disk_eq becomes becomes.disk ?_ carries
    rw [find?_insert_of_ne (Ne.symm (ne_metaPage_of_cached sound found))]
    exact sound.noMeta
  | load other image used admitted absent stored becomes =>
    refine sound.of_disk_eq becomes becomes.disk ?_ carries
    rw [find?_insert_of_ne (Ne.symm admitted)]
    exact sound.noMeta
  | journalMeta lsn page _ encoded becomes =>
    refine ⟨⟨⟨records ++ [.pageImage metaPage ⟨lsn, page⟩], ?_⟩, ?_, ?_,
      fun id real => (carries id real).agree, fun _ => ⟨page, ?_, ?_⟩⟩, becomes.content⟩
    · rw [becomes.disk]
      exact whole.append _
    · rw [becomes.disk]
      exact sound.notEmpty
    · rw [becomes.cache]
      exact sound.noMeta
    · rw [becomes.restored_eq, applyAll_cons, applyAll_nil, durable_append_image whole, if_pos rfl]
      rfl
    · rw [becomes.content]
      exact Meta.decode_encode encoded
  | journalPage other entry lsn _ found becomes =>
    have real := ne_metaPage_of_cached sound found
    refine ⟨sound.of_carries ⟨records ++ [.pageImage other ⟨lsn, entry.image.page⟩], ?_⟩ ?_ ?_
      carries becomes.content becomes.metaDirty ?_, becomes.content⟩
    · rw [becomes.disk]
      exact whole.append _
    · rw [becomes.disk]
      exact le_refl _
    · rw [becomes.cache, find?_insert_of_ne (Ne.symm real)]
      exact sound.noMeta
    · rw [becomes.restored_eq, applyAll_cons, applyAll_nil,
        durable_append_image whole, if_neg (Ne.symm real)]
      rfl
  | dropClean other entry found journalled clean becomes =>
    refine sound.of_disk_eq becomes becomes.disk ?_ carries
    rw [find?_erase_of_ne (Ne.symm (ne_metaPage_of_cached sound found))]
    exact sound.noMeta
  | dropDirty other entry found journalled dirty becomes =>
    have real := ne_metaPage_of_cached sound found
    have disk : after.disk = before.disk.apply (.written other (some entry.image)) := becomes.disk
    refine ⟨sound.of_carries ?_ ?_ ?_ carries becomes.content becomes.metaDirty ?_, becomes.content⟩
    · exact ⟨records, by rw [disk]; exact whole⟩
    · rw [disk]
      exact le_max_left _ _
    · rw [becomes.cache, find?_erase_of_ne (Ne.symm real)]
      exact sound.noMeta
    · rw [restored, disk, durable_write whole, if_neg (Ne.symm real)]
      rfl
  | note record other becomes =>
    refine ⟨sound.of_carries ⟨records ++ [record], ?_⟩ ?_ ?_ carries becomes.content
      becomes.metaDirty ?_, becomes.content⟩
    · rw [becomes.disk]
      exact whole.append _
    · rw [becomes.disk]
      exact le_refl _
    · rw [becomes.cache]
      exact sound.noMeta
    · rw [becomes.restored_eq, applyAll_cons, applyAll_nil, durable_append_other whole other]
      rfl
  | sync becomes => exact sound.of_disk_eq becomes becomes.disk sound.noMeta carries

/-- A run of moves keeps the pager sound and changes no page. -/
theorem Sound.moves (sound : before.Sound) (moves : Moves (· ≠ metaPage) flushes before after) :
    after.Sound ∧ after.content = before.content ∧ ∀ id, id ≠ metaPage → after.held id = before.held id := by
  induction moves with
  | refl => exact ⟨sound, rfl, fun _ _ => rfl⟩
  | tail _ move ih =>
    obtain ⟨soundSo, content, held⟩ := ih
    obtain ⟨soundNext, contentNext⟩ := soundSo.move move
    exact ⟨soundNext, contentNext.trans content, fun id real => (move.carries soundSo real).held.trans (held id real)⟩

/-! ## Changes -/

/-- Putting a changed page into the cache. -/
theorem Sound.putDirty (sound : pager.Sound) (real : id ≠ metaPage) (image : Image) (used : Nat) :
    (pager.putDirty id image used).Sound ∧ ∀ probe, (pager.putDirty id image used).held probe =
        if probe = id then some image.page else pager.held probe := by
  have cache : ∀ probe, (pager.putDirty id image used).cache.find? probe =
      if probe = id then some ⟨image, true, true, used⟩ else pager.cache.find? probe :=
    fun probe => OrderedMap.find?_insert ..
  have restored : ∀ probe, (pager.putDirty id image used).restored probe = pager.restored probe := fun _ => rfl
  refine ⟨⟨sound.whole, sound.notEmpty, ?_, fun probe realProbe => ?_, sound.metaJournalled⟩, fun probe => ?_⟩
  · rw [cache, if_neg (Ne.symm real)]
    exact sound.noMeta
  · rw [cache, restored]
    split
    · exact ⟨fun clean => absurd clean (by simp), fun clean => absurd clean (by simp)⟩
    · exact sound.places probe realProbe
  · rw [held, cache]
    by_cases same : probe = id
    · simp [same]
    · simp only [if_neg same]
      rfl

theorem Sound.metaMut (sound : pager.Sound) (change : Meta → Meta) : (pager.metaMut change).Sound :=
  ⟨sound.whole, sound.notEmpty, sound.noMeta, sound.places, fun clean => absurd clean (by simp [Pager.metaMut])⟩

end Pager
end Ferrite.Storage
