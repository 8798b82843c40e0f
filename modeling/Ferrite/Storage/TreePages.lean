import Ferrite.Storage.BTree

/-!
# Items in pages

What the B-tree needs to know of single pages: where a search in a page ends, what
inserting, removing and replacing an item leave, that a page takes all items whose costs
add up to its size, and where a leaf is cut in two.
-/

namespace Ferrite.Storage

open Logical Page

/-! ## Positions in a list -/

section

variable {α : Type} (left right : List α) (item other : α)

theorem insertIdx_split : (left ++ right).insertIdx left.length item = left ++ item :: right := by
  induction left with
  | nil => simp
  | cons head left ih => simpa using ih

theorem eraseIdx_split : (left ++ item :: right).eraseIdx left.length = left ++ right := by
  induction left with
  | nil => simp
  | cons head left ih => simpa using ih

private theorem set_split : (left ++ item :: right).set left.length other = left ++ other :: right := by simp

end

namespace Page

/-! ## Single operations -/

variable {page after : Page} {index : Nat} {data : Bytes}

/-- The space of an empty page. -/
def room : Nat := pageSize - headerSize

/-- What the items of a page cost together. -/
def costs (items : List Bytes) : Nat := (items.map fun item => itemCost item.length).sum

@[simp] theorem costs_nil : costs [] = 0 := rfl

@[simp] theorem costs_cons (item : Bytes) (items : List Bytes) :
    costs (item :: items) = itemCost item.length + costs items := by
  simp [costs]

@[simp] theorem costs_append (first second : List Bytes) : costs (first ++ second) = costs first + costs second := by
  simp [costs]

theorem costs_eq (items : List Bytes) : costs items = (items.map List.length).sum + slotSize * items.length := by
  induction items with
  | nil => rfl
  | cons item items ih =>
    simp only [costs_cons, ih, itemCost, List.map_cons, List.sum_cons, List.length_cons]
    rw [Nat.mul_add]
    omega

/-- The items of a page never cost more than the page has. -/
theorem costs_items_le (page : Page) : costs page.items ≤ room := by
  have slots := page.slotsFit
  have items := page.itemsFit
  rw [costs_eq]
  simp only [room, headerSize, slotSize] at *
  omega

/-- An item that fits is inserted. -/
theorem insertItem_of_fits (index : Nat) (fits : itemCost data.length ≤ page.freeSpace) :
    ∃ after, page.insertItem index data = some after ∧ after.kind = page.kind ∧
      after.extra = page.extra ∧ after.items = page.items.insertIdx index data ∧
      after.freeEnd = page.freeEnd - data.length :=
  ⟨_, dif_pos fits, rfl, rfl, rfl, rfl⟩

theorem insertItem_eq_none (index : Nat) (wide : ¬ itemCost data.length ≤ page.freeSpace) :
    page.insertItem index data = none := dif_neg wide

theorem fits_of_insertItem (inserted : page.insertItem index data = some after) :
    itemCost data.length ≤ page.freeSpace := by
  by_contra wide
  rw [insertItem_eq_none index wide] at inserted
  simp at inserted

theorem replaceItem_some {left right : List Bytes} {old : Bytes} (items : page.items = left ++ old :: right)
    (replaced : page.replaceItem left.length data = some after) :
    after.kind = page.kind ∧ after.extra = page.extra ∧ after.items = left ++ data :: right := by
  unfold replaceItem at replaced
  split at replaced
  · obtain rfl := Option.some.inj replaced
    refine ⟨rfl, rfl, ?_⟩
    change page.items.set left.length data = _
    rw [items, set_split]
  · dsimp only at replaced
    have removed : (page.removeItem left.length).items = left ++ right := by
      change page.items.eraseIdx left.length = _
      rw [items, eraseIdx_split]
    split at replaced
    · have fits := fits_of_insertItem replaced
      obtain ⟨other, inserted, kind, extra, stored, -⟩ := insertItem_of_fits left.length fits
      obtain rfl := Option.some.inj (inserted.symm.trans replaced)
      refine ⟨kind, extra, ?_⟩
      rw [stored]
      change (page.removeItem left.length).items.insertIdx left.length data = _
      rw [removed, insertIdx_split]
    · have fits := fits_of_insertItem replaced
      obtain ⟨other, inserted, kind, extra, stored, -⟩ := insertItem_of_fits left.length fits
      obtain rfl := Option.some.inj (inserted.symm.trans replaced)
      refine ⟨kind, extra, ?_⟩
      rw [stored, removed, insertIdx_split]

/-- Replacing the only item of a page fails for no item that would fit into an empty page. -/
theorem replaceItem_single {old : Bytes} (items : page.items = [old])
    (small : itemCost data.length ≤ room) : page.replaceItem 0 data ≠ none := by
  intro failed
  unfold replaceItem at failed
  split at failed
  · simp at failed
  · dsimp only at failed
    have removed : (page.removeItem 0).items = [] := by
      change page.items.eraseIdx 0 = _
      rw [items]
      rfl
    split at failed
    · have fits : itemCost data.length ≤ (page.removeItem 0).compact.freeSpace := by
        change itemCost data.length ≤ pageSize - ((page.removeItem 0).items.map List.length).sum -
            (headerSize + slotSize * (page.removeItem 0).items.length)
        rw [removed]
        simpa [room] using small
      obtain ⟨other, inserted, -⟩ := insertItem_of_fits 0 fits
      rw [inserted] at failed
      simp at failed
    · rename_i fits
      obtain ⟨other, inserted, -⟩ := insertItem_of_fits 0 (not_lt.mp fits)
      rw [inserted] at failed
      simp at failed

end Page

namespace BTree

/-! ## Searching a page -/

section

variable {γ : Type} {page : Page} {elements left right : List γ} {element : γ} {render : γ → Bytes}
  {keyOf : γ → Key} {key : Key}

private theorem slotCount_eq (items : page.items = elements.map render) : page.slotCount =
    (elements.map keyOf).length := by
  simp [slotCount, items]

private theorem itemKey_item_eq (items : page.items = elements.map render)
    (keys : ∀ element, itemKey (render element) = keyOf element) (index : Nat)
    (inside : index < (elements.map keyOf).length) : itemKey (page.item index) = (elements.map keyOf)[index] := by
  have here : index < elements.length := by simpa using inside
  simp [item, items, List.getD_eq_getElem?_getD, List.getElem?_eq_getElem here, keys]

/-- A search for the key of an item finds that item. -/
theorem slotSearch_of_mem (items : page.items = elements.map render)
    (keys : ∀ element, itemKey (render element) = keyOf element)
    (ordered : elements.Pairwise fun first second => keyOf first < keyOf second)
    (split : elements = left ++ element :: right) :
    slotSearch page (keyOf element) = .ok left.length := by
  have found := search_of_mem (List.pairwise_map.mpr ordered) (itemKey_item_eq items keys)
    (show elements.map keyOf = left.map keyOf ++ keyOf element :: right.map keyOf by rw [split]; simp)
  rw [slotSearch, slotCount_eq items, found, List.length_map]

/-- A search for a key no item has ends where the key belongs. -/
theorem slotSearch_of_split (items : page.items = elements.map render)
    (keys : ∀ element, itemKey (render element) = keyOf element)
    (ordered : elements.Pairwise fun first second => keyOf first < keyOf second)
    (split : elements = left ++ right) (below : ∀ other ∈ left, keyOf other < key)
    (above : ∀ other ∈ right, key < keyOf other) :
    slotSearch page key = .error left.length := by
  have absent := search_of_split (List.pairwise_map.mpr ordered) (itemKey_item_eq items keys)
    (show elements.map keyOf = left.map keyOf ++ right.map keyOf by rw [split, List.map_append])
    (List.forall_mem_map.mpr below) (List.forall_mem_map.mpr above)
  rw [slotSearch, slotCount_eq items, absent, List.length_map]

/-- Where a search ends in a page whose items stand for the elements of an ordered list. -/
theorem slotSearch_cases (items : page.items = elements.map render)
    (keys : ∀ element, itemKey (render element) = keyOf element)
    (ordered : elements.Pairwise fun first second => keyOf first < keyOf second) (key : Key) :
    (∃ left element right, elements = left ++ element :: right ∧ keyOf element = key ∧
      (∀ other ∈ left, keyOf other < key) ∧ (∀ other ∈ right, key < keyOf other) ∧
      slotSearch page key = .ok left.length) ∨
    ∃ left right, elements = left ++ right ∧ (∀ other ∈ left, keyOf other < key) ∧
      (∀ other ∈ right, key < keyOf other) ∧ slotSearch page key = .error left.length := by
  obtain ⟨smaller, larger, split, below, above⟩ := exists_split (List.pairwise_map.mpr ordered) key
  rcases split with found | absent
  · obtain ⟨left, rest, rfl, rfl, tail⟩ := List.map_eq_append_iff.mp found
    obtain ⟨element, right, rfl, rfl, rfl⟩ := List.map_eq_cons_iff.mp tail
    exact Or.inl ⟨left, element, right, rfl, rfl, List.forall_mem_map.mp below,
      List.forall_mem_map.mp above, slotSearch_of_mem items keys ordered rfl⟩
  · obtain ⟨left, right, rfl, rfl, rfl⟩ := List.map_eq_append_iff.mp absent
    have below := List.forall_mem_map.mp below
    have above := List.forall_mem_map.mp above
    exact Or.inr ⟨left, right, rfl, below, above, slotSearch_of_split items keys ordered rfl below above⟩

end

/-! ## Filling a page -/

private theorem foldlM_insertItem (page : Page) (items : List Bytes)
    (packed : page.freeEnd = pageSize - (page.items.map List.length).sum)
    (fits : costs page.items + costs items ≤ room) :
    ∃ after, (items.zipIdx page.items.length).foldlM
        (fun page indexed => page.insertItem indexed.2 indexed.1) page = some after ∧
      after.kind = page.kind ∧ after.extra = page.extra ∧ after.items = page.items ++ items ∧
      after.freeEnd = pageSize - (after.items.map List.length).sum := by
  induction items generalizing page with
  | nil => exact ⟨page, rfl, rfl, rfl, by simp, packed⟩
  | cons item items ih =>
    have bounds := costs_eq page.items
    have small : itemCost item.length ≤ page.freeSpace := by
      rw [costs_cons, bounds] at fits
      simp only [freeSpace, packed, room, headerSize, pageSize] at *
      omega
    obtain ⟨next, inserted, kind, extra, stored, freeEnd⟩ := insertItem_of_fits page.items.length small
    have atEnd : next.items = page.items ++ [item] := by
      have here := insertIdx_split page.items [] item
      rw [List.append_nil] at here
      rw [stored, here]
    have packed' : next.freeEnd = pageSize - (next.items.map List.length).sum := by
      rw [freeEnd, packed, atEnd]
      simp only [List.map_append, List.sum_append, List.map_cons, List.map_nil, List.sum_cons, List.sum_nil]
      omega
    have fits' : costs next.items + costs items ≤ room := by
      rw [atEnd]
      simp only [costs_append, costs_cons, costs_nil] at fits ⊢
      omega
    obtain ⟨after, folded, kind', extra', stored', packed''⟩ := ih next packed' fits'
    refine ⟨after, ?_, kind'.trans kind, extra'.trans extra, ?_, packed''⟩
    · have count : next.items.length = page.items.length + 1 := by rw [atEnd, List.length_append]; rfl
      rw [count] at folded
      rw [List.zipIdx_cons, List.foldlM_cons, inserted]
      exact folded
    · rw [stored', atEnd, List.append_assoc]
      rfl

/-- Items whose costs add up to no more than a page has fit into a fresh page. -/
theorem filled_eq (kind : PageKind) (extra : PageId) {items : List Bytes} (fits : costs items ≤ room) :
    ∃ page, filled kind extra items = some page ∧ page.kind = kind ∧ page.extra = extra ∧
      page.items = items ∧ page.freeEnd = pageSize - (items.map List.length).sum := by
  have start : costs ((new kind).setExtra extra).items + costs items ≤ room := by
    simpa [new, setExtra] using fits
  obtain ⟨page, folded, kind', extra', stored, packed⟩ :=
    foldlM_insertItem ((new kind).setExtra extra) items rfl start
  have all : page.items = items := by simpa [new, setExtra] using stored
  refine ⟨page, folded, kind', extra', all, ?_⟩
  rw [packed, all]

/-! ## Cutting a leaf -/

/-- The loop stops at the first item that takes the running cost to half the total. -/
theorem splitPoint_eq {total : Nat} (before rest : List Bytes)
    (sum : costs before + costs rest = total) (short : costs before * 2 < total) :
    ∃ left item right, before ++ rest = left ++ item :: right ∧ costs left * 2 < total ∧
      total ≤ (costs left + itemCost item.length) * 2 ∧
      splitPoint total rest before.length (costs before) = max left.length 1 := by
  induction rest generalizing before with
  | nil =>
    rw [costs_nil] at sum
    omega
  | cons item rest ih =>
    rw [splitPoint]
    split
    · rename_i reached
      exact ⟨before, item, rest, rfl, short, reached, rfl⟩
    · rename_i early
      have step := ih (before ++ [item])
        (by simp only [costs_append, costs_cons, costs_nil] at *; omega)
        (by simp only [costs_append, costs_cons, costs_nil] at *; omega)
      simpa [costs_append] using step

/-- The largest total of a leaf that has to be cut: a full page and one more item. -/
def largestItem : Nat := leafHeader + maxInline + slotSize

/-- A leaf that overflowed by one item is cut into two parts that each fit into a page, and
neither is empty. -/
theorem splitAt_spec {items : List Bytes} (several : 2 ≤ items.length)
    (small : ∀ item ∈ items, itemCost item.length ≤ largestItem)
    (bound : costs items ≤ room + largestItem) : 0 < splitAt items ∧ splitAt items < items.length ∧
      costs (items.take (splitAt items)) ≤ room ∧
      costs (items.drop (splitAt items)) ≤ room := by
  have positive : 0 < costs items := by
    rw [costs_eq]
    simp only [slotSize]
    omega
  obtain ⟨left, item, right, split, short, reached, point⟩ :=
    splitPoint_eq [] items (by simp : _ = costs items) (by simpa using positive)
  rw [List.nil_append] at split
  have length : items.length = left.length + right.length + 1 := by
    rw [split, List.length_append, List.length_cons]
    omega
  have cut : splitAt items = max left.length 1 := by
    have point' : splitPoint (items.map fun item => itemCost item.length).sum items 0 0 =
        max left.length 1 := point
    unfold splitAt
    dsimp only
    rw [point', if_neg]
    omega
  have total : costs items = costs left + (itemCost item.length + costs right) := by
    rw [split, costs_append, costs_cons]
  have cost := small item (by rw [split]; simp)
  have sizes : largestItem = 2013 ∧ room = 8168 := ⟨rfl, rfl⟩
  rw [cut]
  refine ⟨by omega, by omega, ?_⟩
  rcases Nat.eq_zero_or_pos left.length with none | some
  · -- the first item alone is half of the total
    rw [List.length_eq_zero_iff] at none
    subst none
    rw [List.nil_append] at split
    rw [split]
    simp only [List.length_nil, Nat.zero_max, List.take_succ_cons, List.take_zero, List.drop_succ_cons,
      List.drop_zero, costs_cons, costs_nil] at *
    omega
  · rw [max_eq_left some, split, List.take_left, List.drop_left, costs_cons]
    omega

end BTree
end Ferrite.Storage
