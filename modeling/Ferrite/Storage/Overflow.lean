import Ferrite.Storage.BTree

/-!
# Leaf entries and their overflow chains

What a leaf item stands for: a key with a payload, and the overflow pages the payload may
be spread over. Writing a payload makes such an entry, reading it gives the payload back,
and releasing it gives its pages back.
-/

namespace Ferrite.Storage.BTree

open Logical PageProg

variable {σ : Type} {cells : Multiset Cell}

/-- The chunk of payload an overflow page holds. -/
def chunkOf (page : Page) : Bytes := page.body.slice 4 (page.body.readLe 0 4)

/-- Overflow pages linked from a first one to the end, which hold the data in pieces. -/
structure Spells (first : PageId) (chain : List Cell) (data : Bytes) : Prop where
  chained : Chained first chain
  overflow : ∀ cell ∈ chain, cell.2.kind = .overflow ∧ cell.2.body.readLe 0 4 ≤ overflowChunk
  spelled : (chain.map fun cell => chunkOf cell.2).flatten = data

/-! ## Writing a chain -/

variable {fuel : Nat} {data chunk : Bytes} {chain : List Cell}

private theorem flatten_chunksOf (enough : data.length ≤ fuel) : (chunksOf fuel data).flatten = data := by
  induction fuel generalizing data with
  | zero => simp [chunksOf, List.length_eq_zero_iff.mp (Nat.le_zero.mp enough)]
  | succ fuel ih =>
    rw [chunksOf]
    split
    · rename_i empty
      simp [List.isEmpty_iff.mp empty]
    · rename_i some
      have positive : 0 < data.length := List.length_pos_iff.mpr (by simpa using some)
      have shorter : (data.drop overflowChunk).length ≤ fuel := by
        simp only [List.length_drop, overflowChunk, pageSize, headerSize]
        omega
      rw [List.flatten_cons, ih shorter, List.take_append_drop]

private theorem length_of_mem_chunksOf (member : chunk ∈ chunksOf fuel data) : chunk.length ≤ overflowChunk := by
  induction fuel generalizing data with
  | zero => simp [chunksOf] at member
  | succ fuel ih =>
    rw [chunksOf] at member
    split at member
    · simp at member
    · rcases List.mem_cons.mp member with rfl | inRest
      · simp
      · exact ih inRest

private theorem flatten_chunks (data : Bytes) : (chunks data).flatten = data := by
  unfold chunks
  split
  · rename_i empty
    simp [List.isEmpty_iff.mp empty]
  · exact flatten_chunksOf (le_refl _)

private theorem length_of_mem_chunks (member : chunk ∈ chunks data) : chunk.length ≤ overflowChunk := by
  unfold chunks at member
  split at member
  · simp [List.mem_singleton.mp member]
  · exact length_of_mem_chunksOf member

private theorem readLe_fillOverflow (small : chunk.length ≤ overflowChunk) (next : PageId) (page : Page) :
    (fillOverflow chunk next page).body.readLe 0 4 = chunk.length := by
  have apart := Body.slice_write_of_disjoint (page.body.write 0 (toLe 4 chunk.length)) 4 0 4 chunk
    (Or.inl (le_refl _))
  have inside := Body.slice_write page.body 0 0 4 (toLe 4 chunk.length) (by simp)
  have bound : chunk.length < 256 ^ 4 := lt_of_le_of_lt small (by decide)
  change ofLe (((page.body.write 0 (toLe 4 chunk.length)).write 4 chunk).slice 0 4) = _
  rw [apart]
  rw [Nat.zero_add] at inside
  rw [inside, List.drop_zero, List.take_of_length_le (by simp), ofLe_toLe_of_lt bound]

private theorem chunkOf_fillOverflow (small : chunk.length ≤ overflowChunk) (next : PageId) (page : Page) :
    chunkOf (fillOverflow chunk next page) = chunk := by
  have inside := Body.slice_write (page.body.write 0 (toLe 4 chunk.length)) 4 0 chunk.length chunk (by omega)
  rw [chunkOf, readLe_fillOverflow small]
  change ((page.body.write 0 (toLe 4 chunk.length)).write 4 chunk).slice 4 chunk.length = chunk
  simpa using inside

private theorem does_writeChunks {before : List Bytes} {next : PageId}
    (small : ∀ chunk ∈ before, chunk.length ≤ overflowChunk) (spells : Spells next chain data) :
    Does (writeChunks before next : PageProg σ PageId) (↑chain + cells) fun first after =>
      ∃ whole, Spells first whole (before.reverse.flatten ++ data) ∧ after = ↑whole + cells := by
  induction before generalizing next chain data with
  | nil => exact Does.pure ⟨chain, by simpa using spells, rfl⟩
  | cons chunk before ih =>
    have here := small chunk List.mem_cons_self
    refine (does_allocPage .overflow).bind fun id after given => ?_
    subst given
    refine (does_withPageMut id _ _).bind fun old after written => ?_
    obtain ⟨-, rfl⟩ := written
    have longer : Spells id ((id, fillOverflow chunk next (Page.new .overflow)) :: chain) (chunk ++ data) := by
      refine ⟨⟨rfl, spells.chained⟩, fun cell member => ?_, ?_⟩
      · rcases List.mem_cons.mp member with rfl | inChain
        · exact ⟨rfl, by rw [readLe_fillOverflow here]; exact here⟩
        · exact spells.overflow cell inChain
      · rw [List.map_cons, List.flatten_cons, chunkOf_fillOverflow here, spells.spelled]
    have rest := ih (fun other member => small other (List.mem_cons_of_mem _ member)) longer
    rw [← Multiset.cons_coe, ← Multiset.singleton_add, add_assoc] at rest
    refine rest.mono ?_
    rintro first after ⟨whole, whole', rfl⟩
    exact ⟨whole, by simpa using whole', rfl⟩

private theorem does_writeOverflow (data : Bytes) : Does (writeOverflow data : PageProg σ PageId) cells fun first after =>
      ∃ chain, Spells first chain data ∧ after = ↑chain + cells := by
  have empty : Spells noPage [] [] := ⟨rfl, by simp, rfl⟩
  have small : ∀ chunk ∈ (chunks data).reverse, chunk.length ≤ overflowChunk := fun chunk member =>
    length_of_mem_chunks (List.mem_reverse.mp member)
  have does : Does (writeChunks (chunks data).reverse noPage : PageProg σ PageId) (↑([] : List Cell) + cells) _ :=
    does_writeChunks small empty
  rw [Multiset.coe_nil, zero_add, List.reverse_reverse, List.append_nil, flatten_chunks] at does
  exact does

/-! ## Reading and freeing a chain -/

private theorem does_readChain {id : PageId} {out : Bytes} (chained : Chained id chain)
    (inside : ∀ cell ∈ chain, cell ∈ cells)
    (overflow : ∀ cell ∈ chain, cell.2.kind = .overflow ∧ cell.2.body.readLe 0 4 ≤ overflowChunk)
    (real : ∀ cell ∈ chain, cell.1 ≠ noPage) (enough : chain.length < fuel) :
    Does (readChain fuel id out : PageProg σ Bytes) cells fun result after =>
      result = out ++ (chain.map fun cell => chunkOf cell.2).flatten ∧ after = cells := by
  induction chain generalizing fuel id out with
  | nil =>
    obtain ⟨fuel, rfl⟩ := Nat.exists_eq_succ_of_ne_zero (Nat.ne_zero_of_lt enough)
    rw [readChain, if_pos (show id = noPage from chained)]
    exact Does.pure ⟨by simp, rfl⟩
  | cons cell rest ih =>
    obtain ⟨fuel, rfl⟩ := Nat.exists_eq_succ_of_ne_zero (Nat.ne_zero_of_lt enough)
    obtain ⟨rfl, linked⟩ := chained
    obtain ⟨kind, short⟩ := overflow cell List.mem_cons_self
    rw [readChain, if_neg (real cell List.mem_cons_self)]
    refine (does_withPage cell.2 (inside cell List.mem_cons_self)).bind ?_
    rintro _ _ ⟨rfl, rfl⟩
    rw [if_neg (by simp [kind]), if_neg (not_lt.mpr short)]
    refine (ih linked (fun other member => inside other (List.mem_cons_of_mem _ member))
      (fun other member => overflow other (List.mem_cons_of_mem _ member))
      (fun other member => real other (List.mem_cons_of_mem _ member))
      (by simpa using enough)).mono ?_
    rintro _ _ ⟨rfl, rfl⟩
    exact ⟨by simp [chunkOf], rfl⟩

private theorem does_readOverflow {first : PageId} (spells : Spells first chain data) :
    Does (readOverflow first data.length : PageProg σ Bytes) (↑chain + cells) fun result after =>
      result = data ∧ after = ↑chain + cells := by
  refine Runs.of_distinct fun distinct => ?_
  have own := distinct.left
  refine (does_readChain spells.chained (fun cell member => by simp [member]) spells.overflow
    (fun cell member => own.2 cell (by simpa using member)) own.length_lt).then ?_
  rintro _ _ ⟨rfl, rfl⟩
  rw [List.nil_append, spells.spelled, if_neg (by simp)]
  exact Does.pure ⟨rfl, rfl⟩

private theorem does_freeChain {id : PageId} (chained : Chained id chain) (real : ∀ cell ∈ chain, cell.1 ≠ noPage)
    (enough : chain.length < fuel) :
    Does (freeChain fuel id : PageProg σ Unit) (↑chain + cells) fun _ after => after = cells := by
  induction chain generalizing fuel id with
  | nil =>
    obtain ⟨fuel, rfl⟩ := Nat.exists_eq_succ_of_ne_zero (Nat.ne_zero_of_lt enough)
    rw [freeChain, if_pos (show id = noPage from chained)]
    exact Does.pure (by simp)
  | cons cell rest ih =>
    obtain ⟨fuel, rfl⟩ := Nat.exists_eq_succ_of_ne_zero (Nat.ne_zero_of_lt enough)
    obtain ⟨rfl, linked⟩ := chained
    rw [freeChain, if_neg (real cell List.mem_cons_self)]
    refine (does_withPage cell.2 (by simp)).bind ?_
    rintro _ _ ⟨rfl, rfl⟩
    rw [← Multiset.cons_coe, ← Multiset.singleton_add, add_assoc]
    refine (does_freePage cell.1 cell.2).bind ?_
    rintro _ _ rfl
    exact ih linked (fun other member => real other (List.mem_cons_of_mem _ member)) (by simpa using enough)

private theorem does_freeOverflow {first : PageId} (chained : Chained first chain) :
    Does (freeOverflow first : PageProg σ Unit) (↑chain + cells) fun _ after => after = cells := by
  refine Runs.of_distinct fun distinct => ?_
  have own := distinct.left
  exact does_freeChain chained (fun cell member => own.2 cell (by simpa using member)) own.length_lt

/-! ## Entries -/

/-- What a leaf item stands for. -/
structure Entry where
  key : Key
  payload : Bytes
  /-- The first overflow page, if there is any. -/
  first : PageId
  chain : List Cell
  fits : payload.length < 2 ^ 32
  stored : if payload.length ≤ maxInline then chain = [] else Spells first chain payload

namespace Entry

/-- The item of an entry in its leaf. -/
def item (entry : Entry) : Bytes :=
  if entry.payload.length ≤ maxInline then inlineItem entry.key entry.payload
  else overflowItem entry.key entry.payload.length entry.first

theorem itemKey_toLe (key : Key) (rest : Bytes) : itemKey (toLe keyLen key.val ++ rest) = key := by
  have bytes : ((toLe keyLen key.val ++ rest).drop 0).take keyLen = toLe keyLen key.val := by
    rw [List.drop_zero]
    exact List.take_left' (length_toLe _ _)
  rw [itemKey, leField, bytes, ofLe_toLe_of_lt (Fin.isLt key)]
  simp

@[simp] theorem itemKey_item (entry : Entry) : itemKey entry.item = entry.key := by
  unfold item
  split
  · exact itemKey_toLe _ _
  · exact itemKey_toLe _ _

/-- The largest cost of an item is that of a payload just short enough for a leaf. -/
theorem cost_item (entry : Entry) : Page.itemCost entry.item.length ≤ leafHeader + maxInline + slotSize := by
  unfold item
  split
  · rename_i short
    simp only [inlineItem, Page.itemCost, List.length_append, length_toLe, List.length_cons, leafHeader]
    omega
  · simp only [overflowItem, Page.itemCost, List.length_append, length_toLe, List.length_cons, leafHeader,
      keyLen, maxInline]
    omega

variable (entry : Entry)

theorem length_overflowItem (key : Key) (total : Nat) (first : PageId) :
    (overflowItem key total first).length = overflowDescriptor := by
  simp [overflowItem, overflowDescriptor, leafHeader]

private theorem leField_first (key : Key) (total : Nat) (first : PageId) :
    leField (overflowItem key total first) (leafHeader + 4) 4 = first.val := by
  have bytes : ((overflowItem key total first).drop (leafHeader + 4)).take 4 = toLe 4 first.val := by
    simp [overflowItem, leafHeader, keyLen, toLe]
  rw [leField, bytes, ofLe_toLe_of_lt (Fin.isLt first)]

private theorem leField_total (key : Key) {total : Nat} (fits : total < 2 ^ 32) (first : PageId) :
    leField (overflowItem key total first) leafHeader 4 = total := by
  have bytes : ((overflowItem key total first).drop leafHeader).take 4 = toLe 4 total := by
    simp [overflowItem, leafHeader, keyLen, toLe]
  rw [leField, bytes, ofLe_toLe_of_lt (by simpa using fits)]

private theorem flag_toLe (key : Key) (flag : UInt8) (rest : Bytes) :
    (toLe keyLen key.val ++ flag :: rest).getD keyLen 0 = flag := by
  simp [List.getD_eq_getElem?_getD]

theorem does_payloadOf : Does (payloadOf entry.item : PageProg σ Bytes) (↑entry.chain + cells) fun result after =>
      result = entry.payload ∧ after = ↑entry.chain + cells := by
  have stored := entry.stored
  unfold item
  split
  · have header : ¬ (inlineItem entry.key entry.payload).length < leafHeader := by
      simp [inlineItem, leafHeader]
    have flag : (inlineItem entry.key entry.payload).getD keyLen 0 = flagInline := flag_toLe _ _ _
    have rest : (inlineItem entry.key entry.payload).drop leafHeader = entry.payload := by
      simp [inlineItem, leafHeader, keyLen, toLe]
    rw [payloadOf, if_neg header, if_pos flag, rest]
    exact Does.pure ⟨rfl, rfl⟩
  · rename_i long
    rw [if_neg long] at stored
    have length := length_overflowItem entry.key entry.payload.length entry.first
    have header : ¬ (overflowItem entry.key entry.payload.length entry.first).length < leafHeader := by
      rw [length]
      decide
    have flag : (overflowItem entry.key entry.payload.length entry.first).getD keyLen 0 = flagOverflow :=
      flag_toLe _ _ _
    rw [payloadOf, if_neg header, flag, if_neg (by decide), if_pos rfl, length, if_neg (lt_irrefl _),
      leField_first, leField_total _ entry.fits, Fin.ofNat_val_eq_self]
    exact does_readOverflow stored

theorem does_releaseItem : Does (releaseItem entry.item : PageProg σ Unit) (↑entry.chain + cells) fun _ after =>
      after = cells := by
  have stored := entry.stored
  unfold item
  split
  · rename_i short
    rw [if_pos short] at stored
    have flag : (inlineItem entry.key entry.payload).getD keyLen 0 = flagInline := flag_toLe _ _ _
    have inline : ¬ (overflowDescriptor ≤ (inlineItem entry.key entry.payload).length ∧
        (inlineItem entry.key entry.payload).getD keyLen 0 = flagOverflow) := by
      rw [flag]
      exact fun both => absurd both.2 (by decide)
    rw [releaseItem, if_neg inline, stored]
    exact Does.pure (by simp)
  · rename_i long
    rw [if_neg long] at stored
    have flag : (overflowItem entry.key entry.payload.length entry.first).getD keyLen 0 = flagOverflow :=
      flag_toLe _ _ _
    have field : leField (overflowItem entry.key entry.payload.length entry.first) (keyLen + 5) 4 =
        entry.first.val := leField_first _ _ _
    rw [releaseItem, if_pos ⟨le_of_eq (length_overflowItem _ _ _).symm, flag⟩, field, Fin.ofNat_val_eq_self]
    exact does_freeOverflow stored.chained

end Entry

theorem does_buildItem (key : Key) {payload : Bytes} (fits : payload.length < 2 ^ 32) :
    Does (buildItem key payload : PageProg σ Bytes) cells fun item after =>
      ∃ entry : Entry, entry.key = key ∧ entry.payload = payload ∧ item = entry.item ∧
        after = ↑entry.chain + cells := by
  unfold buildItem
  split
  · rename_i short
    refine Does.pure ⟨⟨key, payload, noPage, [], fits, by rw [if_pos short]⟩, rfl, rfl, ?_, by simp⟩
    rw [Entry.item, if_pos short]
  · rename_i long
    refine (does_writeOverflow payload).bind ?_
    rintro first _ ⟨chain, spells, rfl⟩
    refine Does.pure ⟨⟨key, payload, first, chain, fits, by rw [if_neg long]; exact spells⟩, rfl, rfl, ?_,
      rfl⟩
    rw [Entry.item, if_neg long]

end Ferrite.Storage.BTree
