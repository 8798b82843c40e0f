import Ferrite.Storage.TreeShape

/-!
# Splits

A full page is replaced by two, and the mark of the new one goes into the node above, which
may split in turn, up to a new root.
-/

namespace Ferrite.Storage.BTree

open PageProg Page

variable {σ : Type} {cells : Multiset Cell}

variable {page : Page} {mark new : Mark} {slotsLeft slotsRight left right : List Mark}

private theorem does_fillPage {kind : PageKind} {tooLarge : String} {id : PageId} {old : Page}
    {items : List Bytes} {extra : PageId} (fits : costs items ≤ room) :
    Does (fillPage kind tooLarge id items extra : PageProg σ Unit) ({(id, old)} + cells)
      fun _ after => ∃ page, after = {(id, page)} + cells ∧ page.kind = kind ∧ page.extra = extra ∧
        page.items = items ∧ page.freeEnd = pageSize - (items.map List.length).sum := by
  obtain ⟨page, isFilled, kind', extra', stored, packed⟩ := filled_eq kind extra fits
  rw [fillPage, isFilled]
  refine (does_withPageMut id old _).bind ?_
  rintro _ _ ⟨-, rfl⟩
  exact Does.pure ⟨page, rfl, kind', extra', stored, packed⟩

/-! ## Internal nodes -/

/-- Items of a list of separators and children. -/
abbrev render (slots : List Mark) : List Bytes := slots.map fun slot => makeInternalItem slot.1 slot.2

private theorem length_makeInternalItem (key : Key) (child : PageId) :
    (makeInternalItem key child).length = internalItem := by
  simp [makeInternalItem, internalItem]

private theorem sum_length_render (slots : List Mark) : ((render slots).map List.length).sum = internalItem * slots.length := by
  induction slots with
  | nil => rfl
  | cons slot slots ih =>
    rw [render, List.map_cons, List.map_cons, List.sum_cons, ih, length_makeInternalItem, List.length_cons]
    ring

private theorem costs_render (slots : List Mark) : costs (render slots) = (internalItem + slotSize) * slots.length := by
  rw [costs_eq, sum_length_render, List.length_map]
  ring

private theorem exists_node (lo : Key) (id : PageId) {slots : List Mark} (kind : page.kind = .internal)
    (items : page.items = render slots) (freeEnd : page.freeEnd = pageSize - ((render slots).map List.length).sum)
    (several : slots ≠ []) : ∃ node : Node, node.lo = lo ∧ node.cell = (id, page) ∧
      node.kids = (lo, page.extra) :: slots :=
  ⟨⟨lo, id, page, slots, kind, items, by rw [freeEnd, sum_length_render], several⟩, rfl, rfl, rfl⟩

/-- The children before and after a place among the children. -/
theorem Node.slots_of_kids (node : Node) {kidsLeft kidsRight : List Mark}
    (kids : node.kids = kidsLeft ++ mark :: kidsRight) : ∃ slotsLeft, node.slots = slotsLeft ++ kidsRight ∧
      (node.lo, node.page.extra) :: slotsLeft = kidsLeft ++ [mark] := by
  cases kidsLeft with
  | nil =>
    obtain ⟨rfl, rest⟩ := List.cons.inj kids
    exact ⟨[], rest, rfl⟩
  | cons head kidsLeft =>
    obtain ⟨rfl, rest⟩ := List.cons.inj kids
    exact ⟨kidsLeft ++ [mark], by rw [rest]; simp, rfl⟩

/-- A node with room takes one more child. -/
theorem Node.insert_slot (node : Node) (slot : Mark) (slots : node.slots = slotsLeft ++ slotsRight)
    (inserted : node.page.insertItem slotsLeft.length (makeInternalItem slot.1 slot.2) = some page) :
    ∃ larger : Node, larger.lo = node.lo ∧ larger.cell = (node.id, page) ∧
      larger.kids = (node.lo, node.page.extra) :: (slotsLeft ++ slot :: slotsRight) := by
  obtain ⟨other, same, kind, extra, items, freeEnd⟩ :=
    insertItem_of_fits slotsLeft.length (fits_of_insertItem inserted)
  obtain rfl := Option.some.inj (same.symm.trans inserted)
  have length : ((render slotsLeft)).length = slotsLeft.length := List.length_map _
  have items' : other.items = render (slotsLeft ++ slot :: slotsRight) := by
    rw [items, node.items, slots, render, List.map_append, ← length, insertIdx_split]
    simp
  have freeEnd' : other.freeEnd = pageSize - ((render (slotsLeft ++ slot :: slotsRight)).map List.length).sum := by
    rw [freeEnd, node.packed, slots, sum_length_render, length_makeInternalItem]
    simp only [List.length_append, List.length_cons]
    rw [Nat.sub_sub]
    congr 1
  obtain ⟨larger, lo, cell, kids⟩ := exists_node node.lo node.id (kind.trans node.kind) items' freeEnd' (by simp)
  exact ⟨larger, lo, cell, by rw [kids, extra]⟩

/-- A node without room is cut in two around its middle child. -/
theorem does_splitInternal (node : Node) (slot : Mark) (slots : node.slots = slotsLeft ++ slotsRight)
    (full : node.page.insertItem slotsLeft.length (makeInternalItem slot.1 slot.2) = none) :
    Does (splitInternal node.id slotsLeft.length (makeInternalItem slot.1 slot.2) :
        PageProg σ (Key × PageId)) ({node.cell} + cells)
      fun result after => ∃ first second : Node, first.mark = node.mark ∧ result = second.mark ∧
        first.kids ++ second.kids = (node.lo, node.page.extra) :: (slotsLeft ++ slot :: slotsRight) ∧
        after = {first.cell} + ({second.cell} + cells) := by
  -- the node holds as many items as fit
  have many : 510 ≤ node.slots.length := by
    by_contra few
    have wide : ¬ itemCost (makeInternalItem slot.1 slot.2).length ≤ node.page.freeSpace := by
      intro fits
      obtain ⟨other, inserted, -⟩ := insertItem_of_fits slotsLeft.length fits
      rw [inserted] at full
      simp at full
    refine wide ?_
    rw [length_makeInternalItem, freeSpace, node.packed, node.items, List.length_map]
    simp only [itemCost, internalItem, keyLen, slotSize, pageSize, headerSize]
    omega
  have most : node.slots.length ≤ 510 := by
    have fits := node.page.costs_items_le
    rw [node.items, costs_render] at fits
    simp only [internalItem, keyLen, slotSize, room, pageSize, headerSize] at fits
    omega
  have length : (slotsLeft ++ slot :: slotsRight).length = 511 := by
    rw [slots, List.length_append] at many most
    simp only [List.length_append, List.length_cons]
    omega
  generalize whole : slotsLeft ++ slot :: slotsRight = children at length
  have items : node.page.items.insertIdx slotsLeft.length (makeInternalItem slot.1 slot.2) = render children := by
    have count : (render slotsLeft).length = slotsLeft.length := List.length_map _
    rw [node.items, slots, render, List.map_append, ← count, insertIdx_split, ← whole]
    simp
  have inside : 255 < children.length := by omega
  have cut : children = children.take 255 ++ children[255] :: children.drop 256 := by
    rw [← List.drop_eq_getElem_cons inside, List.take_append_drop]
  have promoted : (render children).getD 255 [] = makeInternalItem children[255].1 children[255].2 := by
    simp [List.getD_eq_getElem?_getD, List.getElem?_eq_getElem inside]
  have fits : ∀ part : List Mark, part.length ≤ 255 → costs (render part) ≤ room := by
    intro part short
    rw [costs_render]
    simp only [internalItem, keyLen, slotSize, room, pageSize, headerSize]
    omega
  have takeLength : (children.take 255).length = 255 := by rw [List.length_take]; omega
  have dropLength : (children.drop 256).length = 255 := by rw [List.length_drop]; omega
  rw [splitInternal]
  refine (does_withPage node.page (by simp [Node.cell])).bind ?_
  rintro _ _ ⟨rfl, rfl⟩
  dsimp only
  rw [items, List.length_map, length, if_neg (by omega)]
  refine (does_allocPage .internal).bind fun id after given => ?_
  subst given
  have swap : ∀ page, ({(id, page)} : Multiset Cell) + ({node.cell} + cells) =
      {(node.id, node.page)} + ({(id, page)} + cells) := by
    intro page
    rw [Node.cell]
    abel
  rw [swap]
  have halves : (render children).take (511 / 2) = render (children.take 255) ∧
      (render children).drop (511 / 2 + 1) = render (children.drop 256) := by
    constructor
    · exact (List.map_take ..).symm
    · exact (List.map_drop ..).symm
  rw [halves.1, halves.2, promoted]
  refine (does_fillPage (fits _ (le_of_eq takeLength))).bind ?_
  rintro _ _ ⟨first, rfl, kind, extra, stored, packed⟩
  have back : ({(node.id, first)} : Multiset Cell) + ({(id, Page.new .internal)} + cells) =
      {(id, Page.new .internal)} + ({(node.id, first)} + cells) := by abel
  rw [back]
  refine (does_fillPage (fits _ (le_of_eq dropLength))).bind ?_
  rintro _ _ ⟨second, rfl, kind', extra', stored', packed'⟩
  obtain ⟨left, leftLo, leftCell, leftKids⟩ := exists_node node.lo node.id kind stored
    packed (List.ne_nil_of_length_pos (by omega))
  obtain ⟨right, rightLo, rightCell, rightKids⟩ := exists_node children[255].1 id kind'
    stored' packed' (List.ne_nil_of_length_pos (by omega))
  refine Does.pure ⟨left, right, ?_, ?_, ?_, ?_⟩
  · rw [Node.mark, Node.mark, leftLo, show left.id = node.id from congrArg Prod.fst leftCell]
  · rw [Node.mark, rightLo, show right.id = id from congrArg Prod.fst rightCell,
      show itemKey (makeInternalItem children[255].1 children[255].2) = children[255].1 from
        itemKey_makeInternalItem children[255]]
  · rw [leftKids, rightKids, extra, extra', internalChild_makeInternalItem]
    conv_rhs => rw [cut]
    rfl
  · rw [leftCell, rightCell]
    abel

/-! ## Leaves -/

/-- A leaf with at least one entry and no room for another one is cut in two. -/
theorem does_splitLeaf (leaf : Leaf) {left right : List Entry} (entry : Entry)
    (entries : leaf.entries = left ++ right) (some' : left ++ right ≠ []) (from' : leaf.lo ≤ entry.key)
    (below : ∀ other ∈ left, other.key < entry.key) (above : ∀ other ∈ right, entry.key < other.key) :
    Does (splitLeaf leaf.id left.length entry.item : PageProg σ (Key × PageId)) ({leaf.cell} + cells)
      fun result after => ∃ first second : Leaf, first.mark = leaf.mark ∧ result = second.mark ∧
        first.entries ++ second.entries = left ++ entry :: right ∧
        first.page.extra = second.id ∧ second.page.extra = leaf.page.extra ∧
        leaf.lo < second.lo ∧ (∀ other ∈ first.entries, other.key < second.lo) ∧
        (∃ other ∈ left ++ entry :: right, other.key = second.lo) ∧
        after = {first.cell} + ({second.cell} + cells) := by
  have ordered : (left ++ entry :: right).Pairwise fun first second => first.key < second.key := by
    have parts := leaf.ordered
    rw [entries] at parts
    obtain ⟨leftOk, rightOk, across⟩ := List.pairwise_append.mp parts
    refine List.pairwise_append.mpr ⟨leftOk, List.pairwise_cons.mpr ⟨above, rightOk⟩, ?_⟩
    intro first inLeft second member
    rcases List.mem_cons.mp member with rfl | inRight
    · exact below first inLeft
    · exact across first inLeft second inRight
  have bounded : ∀ other ∈ left ++ entry :: right, leaf.lo ≤ other.key := by
    intro other member
    have inLeaf := leaf.above other
    rw [entries] at inLeaf
    rcases List.mem_append.mp member with inLeft | inRest
    · exact inLeaf (by simp [inLeft])
    · rcases List.mem_cons.mp inRest with rfl | inRight
      · exact from'
      · exact inLeaf (by simp [inRight])
  have items : leaf.page.items.insertIdx left.length entry.item = (left ++ entry :: right).map Entry.item := by
    have count : (left.map Entry.item).length = left.length := List.length_map _
    rw [leaf.items, entries, List.map_append, ← count, insertIdx_split]
    simp
  have costs : costs ((left ++ entry :: right).map Entry.item) ≤ room + largestItem := by
    have before := leaf.page.costs_items_le
    have own : itemCost entry.item.length ≤ largestItem := entry.cost_item
    rw [leaf.items, entries, List.map_append, costs_append] at before
    rw [List.map_append, List.map_cons, costs_append, costs_cons]
    omega
  have several : 2 ≤ ((left ++ entry :: right).map Entry.item).length := by
    have positive := List.length_pos_iff.mpr some'
    simp only [List.length_append, List.length_map, List.length_cons] at positive ⊢
    omega
  have small : ∀ item ∈ (left ++ entry :: right).map Entry.item, itemCost item.length ≤ largestItem :=
    List.forall_mem_map.mpr fun other _ => other.cost_item
  generalize left ++ entry :: right = all at *
  obtain ⟨positive, inside, firstFits, secondFits⟩ := splitAt_spec several small costs
  rw [splitLeaf]
  refine (does_withPage leaf.page (by simp [Leaf.cell])).bind ?_
  rintro _ _ ⟨rfl, rfl⟩
  dsimp only
  rw [items, if_neg (by omega)]
  refine (does_allocPage .leaf).bind fun id after given => ?_
  subst given
  generalize splitAt (all.map Entry.item) = cut at *
  rw [List.length_map] at inside
  rw [← List.map_take] at firstFits ⊢
  rw [← List.map_drop] at secondFits ⊢
  have separator : itemKey ((all.map Entry.item).getD cut []) = all[cut].key := by
    simp [List.getD_eq_getElem?_getD, List.getElem?_eq_getElem inside]
  have halves : all.take cut ++ all.drop cut = all := List.take_append_drop cut all
  have parts := ordered
  rw [← halves] at parts
  obtain ⟨firstOrdered, secondOrdered, across⟩ := List.pairwise_append.mp parts
  have head : all.drop cut = all[cut] :: all.drop (cut + 1) := List.drop_eq_getElem_cons inside
  have firstBelow : ∀ other ∈ all.take cut, other.key < all[cut].key := fun other member =>
    across other member all[cut] (by rw [head]; exact List.mem_cons_self)
  have swap : ∀ page, ({(id, page)} : Multiset Cell) + ({leaf.cell} + cells) =
      {(leaf.id, leaf.page)} + ({(id, page)} + cells) := by
    intro page
    rw [Leaf.cell]
    abel
  rw [swap]
  refine (does_fillPage firstFits).bind ?_
  rintro _ _ ⟨first, rfl, kind, extra, stored, -⟩
  have back : ({(leaf.id, first)} : Multiset Cell) + ({(id, Page.new .leaf)} + cells) =
      {(id, Page.new .leaf)} + ({(leaf.id, first)} + cells) := by abel
  rw [back]
  refine (does_fillPage secondFits).bind ?_
  rintro _ _ ⟨second, rfl, kind', extra', stored', -⟩
  let lower : Leaf := ⟨leaf.lo, leaf.id, first, all.take cut, kind, stored, firstOrdered,
    fun other member => bounded other (List.mem_of_mem_take member)⟩
  let upper : Leaf := ⟨all[cut].key, id, second, all.drop cut, kind', stored', secondOrdered, by
    intro other member
    rw [head] at member secondOrdered
    rcases List.mem_cons.mp member with rfl | inRest
    · exact le_refl _
    · exact le_of_lt ((List.pairwise_cons.mp secondOrdered).1 other inRest)⟩
  refine Does.pure ⟨lower, upper, rfl, by rw [separator]; rfl, halves, extra, extra', ?_, firstBelow,
    ⟨all[cut], List.getElem_mem inside, rfl⟩, ?_⟩
  · obtain ⟨other, member⟩ := List.exists_mem_of_length_pos
      (show 0 < (all.take cut).length by rw [List.length_take]; omega)
    exact lt_of_le_of_lt (bounded other (List.mem_of_mem_take member)) (firstBelow other member)
  · change _ = {(leaf.id, first)} + ({(id, second)} + cells)
    abel

/-! ## Up the path -/

private theorem rowCells_append (left right : List Node) : rowCells (left ++ right) = rowCells left + rowCells right
    := by
  simp [rowCells]

private theorem rowCells_cons (node : Node) (nodes : List Node) : rowCells (node :: nodes) =
    {node.cell} + rowCells nodes := by
  simp [rowCells]

private theorem levelCells_cons (nodes : List Node) (levels : List (List Node)) :
    levelCells (nodes :: levels) = rowCells nodes + levelCells levels := by
  simp [levelCells]

/-- A mark that belongs right after another one of an increasing row. -/
theorem Increasing.insert (increasing : Increasing (left ++ mark :: right)) (above : mark.1 < new.1)
    (below : ∀ other ∈ right, new.1 < other.1) : Increasing (left ++ mark :: new :: right) := by
  obtain ⟨leftOk, rest, across⟩ := List.pairwise_append.mp increasing
  obtain ⟨markBelow, rightOk⟩ := List.pairwise_cons.mp rest
  refine List.pairwise_append.mpr ⟨leftOk, ?_, ?_⟩
  · refine List.pairwise_cons.mpr ⟨?_, List.pairwise_cons.mpr ⟨below, rightOk⟩⟩
    intro other member
    rcases List.mem_cons.mp member with rfl | inRight
    · exact above
    · exact markBelow other inRight
  · intro first inLeft second member
    rcases List.mem_cons.mp member with rfl | inRest
    · exact across first inLeft _ List.mem_cons_self
    · rcases List.mem_cons.mp inRest with rfl | inRight
      · exact lt_trans (across first inLeft mark List.mem_cons_self) above
      · exact across first inLeft _ (List.mem_cons_of_mem _ inRight)

/-- The root of a new level above the old root. -/
theorem does_propagate_nil (root : PageId) (new : Mark) :
    Does (propagate root [] new.1 new.2 : PageProg σ PageId) cells fun root' after =>
      ∃ node : Node, node.mark = (0, root') ∧ node.kids = [(0, root), new] ∧ after = {node.cell} + cells := by
  have fits : itemCost (makeInternalItem new.1 new.2).length ≤
      ((Page.new .internal).setExtra root).freeSpace := by
    rw [length_makeInternalItem]
    change itemCost internalItem ≤ pageSize - (headerSize + slotSize * 0)
    decide
  obtain ⟨page, inserted, kind, extra, items, freeEnd⟩ := insertItem_of_fits 0 fits
  have items' : page.items = render [new] := items
  have freeEnd' : page.freeEnd = pageSize - ((render [new]).map List.length).sum := by
    rw [freeEnd, sum_length_render, length_makeInternalItem]
    rfl
  rw [propagate]
  refine (does_allocPage .internal).bind fun id after given => ?_
  subst given
  refine (does_withPageMut id _ _).bind ?_
  rintro _ _ ⟨-, rfl⟩
  dsimp only
  rw [inserted, Option.getD_some]
  obtain ⟨node, lo, cell, kids⟩ := exists_node 0 id kind items' freeEnd' (by simp)
  refine Does.pure ⟨node, ?_, ?_, by rw [cell]⟩
  · rw [Node.mark, lo, show node.id = id from congrArg Prod.fst cell]
  · rw [kids, extra]
    rfl

/-- The mark of a new page goes into the rows above, next to the page it was split from. -/
theorem does_propagate {root : PageId} {levels : List (List Node)} {path : List PageId}
    (walked : Path levels left mark right path) (stacked : Stacked (left ++ mark :: right) levels [(0, root)])
    (increasing : Increasing (left ++ mark :: right)) (above : mark.1 < new.1)
    (below : ∀ other ∈ right, new.1 < other.1) :
    Does (propagate root path new.1 new.2 : PageProg σ PageId) (levelCells levels + cells)
      fun root' after => ∃ levels', Stacked (left ++ mark :: new :: right) levels' [(0, root')] ∧
        after = levelCells levels' + cells := by
  induction levels generalizing left mark right new path cells with
  | nil =>
    obtain rfl : path = [] := walked
    have row : [(0, root)] = left ++ mark :: right := stacked
    obtain ⟨rfl, rfl, rfl⟩ : left = [] ∧ mark = (0, root) ∧ right = [] := by
      cases left with
      | nil =>
        obtain ⟨same, rest⟩ := List.cons.inj row
        exact ⟨rfl, same.symm, rest.symm⟩
      | cons head left =>
        obtain ⟨-, rest⟩ := List.cons.inj row
        simp at rest
    refine (does_propagate_nil root new).mono ?_
    rintro root' _ ⟨node, isRoot, kids, rfl⟩
    refine ⟨[[node]], ⟨by simp [kids], by simp [Stacked, isRoot]⟩, ?_⟩
    rw [levelCells_cons, rowCells_cons]
    simp [levelCells, rowCells]
  | cons nodes levels ih =>
    obtain ⟨nodesLeft, node, nodesRight, kidsLeft, kidsRight, rest, rfl, kids, rfl, rfl, rfl, walked⟩ := walked
    obtain ⟨-, stacked⟩ := stacked
    rw [List.map_append, List.map_cons] at stacked
    obtain ⟨slotsLeft, slots, front⟩ := node.slots_of_kids kids
    have front' : (node.lo, node.page.extra) :: (slotsLeft ++ new :: kidsRight) =
        kidsLeft ++ mark :: new :: kidsRight := by
      rw [← List.cons_append, front]
      simp
    have row : Increasing ((nodesLeft.flatMap Node.kids ++ kidsLeft) ++
        mark :: new :: (kidsRight ++ nodesRight.flatMap Node.kids)) := increasing.insert above below
    have regroup : (nodesLeft.flatMap Node.kids ++ kidsLeft) ++
        mark :: new :: (kidsRight ++ nodesRight.flatMap Node.kids) =
        nodesLeft.flatMap Node.kids ++ ((node.lo, node.page.extra) :: (slotsLeft ++ new :: kidsRight) ++
            nodesRight.flatMap Node.kids) := by
      rw [front']
      simp
    rw [regroup] at row
    have own : Increasing ((node.lo, node.page.extra) :: (slotsLeft ++ new :: kidsRight)) :=
      row.sublist ((List.sublist_append_left _ _).trans (List.sublist_append_right _ _))
    obtain ⟨-, slotsOrdered⟩ := List.pairwise_cons.mp own
    obtain ⟨leftOk, newRight, leftBelow⟩ := List.pairwise_append.mp slotsOrdered
    have nodeOrdered : node.slots.Pairwise fun first second => first.1 < second.1 := by
      rw [slots]
      exact List.Pairwise.sublist (List.Sublist.append_left (List.sublist_cons_self _ _) _) slotsOrdered
    have searched : slotSearch node.page new.1 = .error slotsLeft.length :=
      slotSearch_of_split node.items itemKey_makeInternalItem nodeOrdered slots
        (fun other member => leftBelow other member new List.mem_cons_self)
        (List.pairwise_cons.mp newRight).1
    have split : levelCells ((nodesLeft ++ node :: nodesRight) :: levels) + cells =
        {(node.id, node.page)} + (rowCells nodesLeft + rowCells nodesRight + levelCells levels + cells) := by
      rw [levelCells_cons, rowCells_append, rowCells_cons, Node.cell]
      abel
    rw [propagate, split]
    dsimp only
    refine (does_withPage node.page (by simp)).bind ?_
    rintro _ _ ⟨rfl, rfl⟩
    rw [searched]
    dsimp only
    refine (does_withPageMut node.id node.page _).bind ?_
    rintro _ _ ⟨rfl, rfl⟩
    cases inserted : node.page.insertItem slotsLeft.length (makeInternalItem new.1 new.2) with
    | some page =>
      obtain ⟨larger, lo, cell, kids'⟩ := node.insert_slot new slots inserted
      rw [if_pos (show (some page).isSome = true from rfl), Option.getD_some]
      refine Does.pure ⟨(nodesLeft ++ larger :: nodesRight) :: levels, ⟨?_, ?_⟩, ?_⟩
      · rw [regroup, List.flatMap_append, List.flatMap_cons, kids']
      · rw [List.map_append, List.map_cons, Node.mark, lo,
          show larger.id = node.id from congrArg Prod.fst cell]
        exact stacked
      · rw [levelCells_cons, rowCells_append, rowCells_cons, cell]
        abel
    | none =>
      rw [if_neg (by simp), Option.getD_none]
      refine (does_splitInternal node new slots inserted).bind ?_
      rintro _ _ ⟨first, second, mark', rfl, kids', rfl⟩
      have markIncreasing : Increasing ((nodesLeft ++ first :: second :: nodesRight).map Node.mark) := by
        refine increasing_nodes ?_
        rw [List.flatMap_append, List.flatMap_cons, List.flatMap_cons, ← List.append_assoc first.kids, kids']
        exact row
      rw [List.map_append, List.map_cons, List.map_cons, mark'] at markIncreasing
      obtain ⟨-, tail, -⟩ := List.pairwise_append.mp markIncreasing
      obtain ⟨nodeBelow, tail⟩ := List.pairwise_cons.mp tail
      obtain ⟨secondBelow, -⟩ := List.pairwise_cons.mp tail
      have upper : Increasing (nodesLeft.map Node.mark ++ node.mark :: nodesRight.map Node.mark) :=
        markIncreasing.sublist (List.Sublist.append_left ((List.sublist_cons_self _ _).cons_cons _) _)
      have regroup' : {first.cell} + ({second.cell} +
          (rowCells nodesLeft + rowCells nodesRight + levelCells levels + cells)) =
          levelCells levels + ({first.cell} + {second.cell} + rowCells nodesLeft + rowCells nodesRight +
            cells) := by abel
      rw [regroup']
      refine (ih walked stacked upper (nodeBelow _ List.mem_cons_self) secondBelow).mono ?_
      rintro root' _ ⟨levels', stacked', rfl⟩
      refine ⟨(nodesLeft ++ first :: second :: nodesRight) :: levels', ⟨?_, ?_⟩, ?_⟩
      · rw [regroup, List.flatMap_append, List.flatMap_cons, List.flatMap_cons, ← List.append_assoc first.kids, kids']
      · rw [List.map_append, List.map_cons, List.map_cons, mark']
        exact stacked'
      · rw [levelCells_cons, rowCells_append, rowCells_cons, rowCells_cons]
        abel

end Ferrite.Storage.BTree
