import Ferrite.Storage.TreeReads

/-!
# Changing a tree

What the writing operations of the B-tree do to a tree and to the map it stores. The only
refusal of an insertion is a leaf that holds nothing and whose free space is taken by the
holes of removed items.
-/

namespace Ferrite.Storage.BTree

open Logical PageProg OrderedMap

variable {σ : Type} {cells : Multiset Cell}

theorem does_create : Does (create : PageProg σ PageId) cells fun root after =>
      ∃ tree : Tree, tree.root = root ∧ tree.denote = .empty ∧ after = tree.cells + cells := by
  rw [create]
  refine (does_allocPage .leaf).bind fun id after given => ?_
  subst given
  refine (does_withPageMut id _ _).bind ?_
  rintro _ _ ⟨-, rfl⟩
  let leaf : Leaf := ⟨0, id, (Page.new .leaf).setExtra noPage, [], rfl, rfl, List.Pairwise.nil, by simp⟩
  let tree : Tree := ⟨id, [leaf], [], rfl, by simp, id, rfl, rfl⟩
  refine Does.pure ⟨tree, rfl, rfl, ?_⟩
  simp [Tree.cells, Leaf.cells, Leaf.cell, chains, levelCells, tree, leaf]

namespace Tree

variable (tree : Tree) {left right : List Leaf} {leaf : Leaf} {entriesLeft entriesRight : List Entry}

/-! ## Removal -/

private theorem exists_removed (leaf : Leaf) {entry : Entry} (entries : leaf.entries = entriesLeft ++ entry :: entriesRight) :
    ∃ fewer : Leaf, fewer.mark = leaf.mark ∧ fewer.page = leaf.page.removeItem entriesLeft.length ∧
      fewer.entries = entriesLeft ++ entriesRight := by
  have sub : (entriesLeft ++ entriesRight).Sublist leaf.entries := by
    rw [entries]
    exact List.Sublist.append_left (List.sublist_cons_self _ _) _
  have items : (leaf.page.removeItem entriesLeft.length).items = (entriesLeft ++ entriesRight).map Entry.item := by
    have count : (entriesLeft.map Entry.item).length = entriesLeft.length := List.length_map _
    change leaf.page.items.eraseIdx entriesLeft.length = _
    rw [leaf.items, entries, List.map_append, List.map_cons, ← count, eraseIdx_split, List.map_append]
  exact ⟨⟨leaf.lo, leaf.id, leaf.page.removeItem entriesLeft.length, entriesLeft ++ entriesRight,
    leaf.kind, items, leaf.ordered.sublist sub, fun other member => leaf.above other (sub.subset member)⟩,
    rfl, rfl, rfl⟩

theorem does_remove (key : Key) : Does (remove tree.root key : PageProg σ Bool) tree.cells fun result after =>
      ∃ tree' : Tree, tree'.root = tree.root ∧ tree'.denote = tree.denote.erase key ∧
        result = (tree.denote.find? key).isSome ∧ after = tree'.cells := by
  rw [remove]
  refine (tree.does_descend key).bind ?_
  rintro _ _ ⟨rfl, left, leaf, right, path, leaves, from', until', rfl, -⟩
  refine (does_withPage leaf.page (tree.leaf_mem_cells (by simp [leaves]))).bind ?_
  rintro _ _ ⟨rfl, rfl⟩
  rcases slotSearch_leaf leaf key with ⟨entriesLeft, entry, entriesRight, entries, rfl, below, above, found⟩ |
    ⟨entriesLeft, entriesRight, entries, below, above, absent⟩
  · rw [found]
    dsimp only
    rw [item_split leaf entries, tree.cells_entry leaves entries]
    refine entry.does_releaseItem.bind ?_
    rintro _ _ rfl
    have split : {leaf.cell} + chains entriesLeft + chains entriesRight + tree.others left right =
        {(leaf.id, leaf.page)} + (chains entriesLeft + chains entriesRight + tree.others left right) := by
      rw [Leaf.cell]
      abel
    rw [split]
    refine (does_withPageMut leaf.id leaf.page _).bind ?_
    rintro _ _ ⟨-, rfl⟩
    obtain ⟨fewer, mark, page, entries'⟩ := exists_removed leaf entries
    have id : fewer.id = leaf.id := congrArg Prod.snd mark
    obtain ⟨tree', root, leaves', levels⟩ := tree.exists_replace leaves fewer mark (by rw [page]; rfl) (by
      intro other member next inRight
      refine ((tree.bounds leaves).2 next inRight).2 other ?_
      rw [entries'] at member
      rw [entries]
      exact (List.Sublist.append_left (List.sublist_cons_self _ _) _).subset member)
    refine Does.pure ⟨tree', root, ?_, ?_, ?_⟩
    · refine ext ?_
      rw [entries_absent leaves' entries']
      change _ = tree.denote.entries.filter _
      rw [entries_present leaves entries, filter_split _ (before_lt leaves from' below)
        (after_gt until' above)]
    · rw [tree.denote.find?_present (entries_present leaves entries)]
      rfl
    · rw [tree'.cells_split leaves', Leaf.cells, Leaf.cell, page, id, entries', chains_append, tree.others_eq levels]
      abel
  · rw [absent]
    refine Does.pure ⟨tree, rfl, ?_, ?_, rfl⟩
    · refine ext ?_
      change _ = tree.denote.entries.filter _
      rw [entries_absent leaves entries, filter_absent (before_lt leaves from' below)
        (after_gt until' above)]
    · rw [tree.denote.find?_absent (entries_absent leaves entries) (before_lt leaves from' below)
        (after_gt until' above)]
      rfl

/-! ## Insertion -/

/-- A leaf with one more entry, in a page that has its item too. -/
theorem exists_inserted (leaf : Leaf) {page : Page} (entry : Entry)
    (entries : leaf.entries = entriesLeft ++ entriesRight) (kind : page.kind = leaf.page.kind)
    (items : page.items = (entriesLeft ++ entry :: entriesRight).map Entry.item)
    (from' : leaf.lo ≤ entry.key) (below : ∀ other ∈ entriesLeft, other.key < entry.key)
    (above : ∀ other ∈ entriesRight, entry.key < other.key) : ∃ more : Leaf, more.mark = leaf.mark ∧ more.page = page ∧
      more.entries = entriesLeft ++ entry :: entriesRight := by
  have parts := leaf.ordered
  rw [entries] at parts
  obtain ⟨leftOk, rightOk, across⟩ := List.pairwise_append.mp parts
  have start := leaf.above
  rw [entries] at start
  refine ⟨⟨leaf.lo, leaf.id, page, entriesLeft ++ entry :: entriesRight, kind.trans leaf.kind, items,
    List.pairwise_append.mpr ⟨leftOk, List.pairwise_cons.mpr ⟨above, rightOk⟩, ?_⟩, ?_⟩, rfl, rfl, rfl⟩
  · intro first inLeft second member
    rcases List.mem_cons.mp member with rfl | inRight
    · exact below first inLeft
    · exact across first inLeft second inRight
  · intro other member
    rcases List.mem_append.mp member with inLeft | inRest
    · exact start other (by simp [inLeft])
    · rcases List.mem_cons.mp inRest with rfl | inRight
      · exact from'
      · exact start other (by simp [inRight])

/-- What an insertion leaves: a tree with the new binding. -/
def Inserted (tree : Tree) (key : Key) (payload : Bytes) (root : PageId) (after : Multiset Cell) : Prop :=
  ∃ tree' : Tree, tree'.root = root ∧ tree'.denote = tree.denote.insert key payload ∧ after = tree'.cells

/-- Where an entry belongs: in the leaf of its key, between the entries below and those above. -/
structure Belongs (leaf : Leaf) (right : List Leaf) (entriesLeft entriesRight : List Entry) (entry : Entry) : Prop where
  from' : leaf.lo ≤ entry.key
  until' : ∀ other ∈ right, entry.key < other.lo
  below : ∀ other ∈ entriesLeft, other.key < entry.key
  above : ∀ other ∈ entriesRight, entry.key < other.key

/-- The bindings of a tree around an entry that replaced an old one or is new. -/
theorem insert_entries (entry : Entry) (leaves : tree.leaves = left ++ leaf :: right)
    (entries : leaf.entries = entriesLeft ++ entriesRight ∨
      ∃ old : Entry, old.key = entry.key ∧ leaf.entries = entriesLeft ++ old :: entriesRight)
    (belongs : Belongs leaf right entriesLeft entriesRight entry) :
    (tree.denote.insert entry.key entry.payload).entries =
      (pairs left ++ entriesLeft.map fun entry => (entry.key, entry.payload)) ++ (entry.key, entry.payload) ::
          ((entriesRight.map fun entry => (entry.key, entry.payload)) ++ pairs right) := by
  change insertEntry entry.key entry.payload tree.denote.entries = _
  rcases entries with new | ⟨old, same, known⟩
  · rw [entries_absent leaves new,
      insertEntry_split _ (before_lt leaves belongs.from' belongs.below) (after_gt belongs.until' belongs.above)]
  · rw [entries_present leaves known, same,
      insertEntry_replace _ _ (before_lt leaves belongs.from' belongs.below)]

/-- A leaf that took the entry, in its old place. -/
theorem inserted_of_replaced (leaves : tree.leaves = left ++ leaf :: right) (entry : Entry) {more : Leaf}
    (mark : more.mark = leaf.mark) (extra : more.page.extra = leaf.page.extra)
    (entries' : more.entries = entriesLeft ++ entry :: entriesRight)
    (entries : leaf.entries = entriesLeft ++ entriesRight ∨
      ∃ old : Entry, old.key = entry.key ∧ leaf.entries = entriesLeft ++ old :: entriesRight)
    (belongs : Belongs leaf right entriesLeft entriesRight entry) : tree.Inserted entry.key entry.payload tree.root
      ({more.cell} + (chains (entriesLeft ++ entry :: entriesRight) + tree.others left right)) := by
  have within : ∀ other ∈ entriesLeft ++ entriesRight, other ∈ leaf.entries := by
    intro other member
    rcases entries with new | ⟨old, -, known⟩
    · rw [new]
      exact member
    · rw [known]
      exact (List.Sublist.append_left (List.sublist_cons_self _ _) _).subset member
  obtain ⟨tree', root, leaves', levels⟩ := tree.exists_replace leaves more mark extra (by
    intro other member next inRight
    rw [entries'] at member
    rcases List.mem_append.mp member with inLeft | inRest
    · exact ((tree.bounds leaves).2 next inRight).2 other (within other (by simp [inLeft]))
    · rcases List.mem_cons.mp inRest with rfl | inRight'
      · exact belongs.until' next inRight
      · exact ((tree.bounds leaves).2 next inRight).2 other (within other (by simp [inRight'])))
  refine ⟨tree', root, ext ?_, ?_⟩
  · rw [entries_present leaves' entries', tree.insert_entries entry leaves entries belongs]
  · rw [tree'.cells_split leaves', Leaf.cells, entries', tree.others_eq levels, add_assoc]

/-- The same tree with two leaves in the place of one and the levels above adjusted. -/
theorem exists_split (leaves : tree.leaves = left ++ leaf :: right) {root : PageId} {first second : Leaf}
    {levels : List (List Node)} (mark : first.mark = leaf.mark)
    (stacked : Stacked (left.map Leaf.mark ++ leaf.mark :: second.mark :: right.map Leaf.mark) levels [(0, root)])
    (link : first.page.extra = second.id) (extra : second.page.extra = leaf.page.extra)
    (apart : leaf.lo < second.lo) (firstBelow : ∀ entry ∈ first.entries, entry.key < second.lo)
    (secondBelow : ∀ other ∈ right, second.lo < other.lo)
    (bounded : ∀ entry ∈ first.entries ++ second.entries, ∀ other ∈ right, entry.key < other.lo) :
    ∃ tree' : Tree, tree'.root = root ∧ tree'.leaves = left ++ first :: second :: right ∧ tree'.levels = levels := by
  have id : first.id = leaf.id := congrArg Prod.snd mark
  have lo : first.lo = leaf.lo := congrArg Prod.fst mark
  refine ⟨⟨root, left ++ first :: second :: right, levels, ?_, ?_, ?_⟩, rfl, rfl, rfl⟩
  · rw [List.map_append, List.map_cons, List.map_cons, mark]
    exact stacked
  · have ordered := tree.ordered
    rw [leaves] at ordered
    obtain ⟨leftOk, rest, across⟩ := List.pairwise_append.mp ordered
    obtain ⟨leafBelow, rightOk⟩ := List.pairwise_cons.mp rest
    obtain ⟨before, -⟩ := tree.bounds leaves
    refine List.pairwise_append.mpr ⟨leftOk, List.pairwise_cons.mpr ⟨?_, List.pairwise_cons.mpr ⟨?_, rightOk⟩⟩, ?_⟩
    · intro other member
      rcases List.mem_cons.mp member with rfl | inRight
      · exact ⟨by rw [lo]; exact apart, firstBelow⟩
      · exact ⟨by rw [lo]; exact (leafBelow other inRight).1, fun entry inside =>
          bounded entry (by simp [inside]) other inRight⟩
    · exact fun other member => ⟨secondBelow other member, fun entry inside =>
        bounded entry (by simp [inside]) other member⟩
    · intro earlier inLeft later member
      obtain ⟨start, within⟩ := before earlier inLeft
      rcases List.mem_cons.mp member with rfl | inRest
      · rw [lo]
        exact ⟨start, within⟩
      · rcases List.mem_cons.mp inRest with rfl | inRight
        · exact ⟨lt_trans start apart, fun entry inside => lt_trans (within entry inside) apart⟩
        · exact across earlier inLeft later (List.mem_cons_of_mem _ inRight)
  · obtain ⟨start, chained⟩ := tree.chained
    rw [leaves, List.map_append, List.map_cons] at chained
    refine ⟨start, ?_⟩
    rw [List.map_append, List.map_cons, List.map_cons]
    exact Chained.split chained id link extra

/-- Splitting a leaf and carrying the new mark up gives a tree again. -/
theorem does_splitUp (leaves : tree.leaves = left ++ leaf :: right) {path : List PageId}
    (walked : Path tree.levels (left.map Leaf.mark) leaf.mark (right.map Leaf.mark) path) (now : Leaf)
    (mark : now.mark = leaf.mark) (extra : now.page.extra = leaf.page.extra)
    (entries : now.entries = entriesLeft ++ entriesRight) (some' : entriesLeft ++ entriesRight ≠ [])
    (entry : Entry) (belongs : Belongs leaf right entriesLeft entriesRight entry)
    (bounded : ∀ other ∈ now.entries, ∀ next ∈ right, other.key < next.lo) :
    Does (splitUp tree.root leaf.id path entriesLeft.length entry.item : PageProg σ PageId)
      ({now.cell} + (chains (entriesLeft ++ entry :: entriesRight) + tree.others left right))
      fun root after => ∃ tree' : Tree, tree'.root = root ∧ tree'.bindings = pairs left ++
          ((entriesLeft ++ entry :: entriesRight).map fun entry => (entry.key, entry.payload)) ++
            pairs right ∧ after = tree'.cells := by
  have id : now.id = leaf.id := congrArg Prod.snd mark
  have lo : now.lo = leaf.lo := congrArg Prod.fst mark
  have all : ∀ other ∈ entriesLeft ++ entry :: entriesRight, ∀ next ∈ right, other.key < next.lo := by
    intro other member next inRight
    rw [entries] at bounded
    rcases List.mem_append.mp member with inLeft | inRest
    · exact bounded other (by simp [inLeft]) next inRight
    · rcases List.mem_cons.mp inRest with rfl | inRight'
      · exact belongs.until' next inRight
      · exact bounded other (by simp [inRight']) next inRight
  rw [splitUp, ← id]
  refine (does_splitLeaf now entry entries some' (lo ▸ belongs.from') belongs.below belongs.above).bind ?_
  rintro _ _ ⟨first, second, mark', rfl, halves, link, extra', apart, firstBelow, ⟨separator, inside, same⟩, rfl⟩
  rw [mark] at mark'
  rw [lo] at apart
  have secondBelow : ∀ other ∈ right, second.lo < other.lo := fun other member =>
    same ▸ all separator inside other member
  have increasing : Increasing (left.map Leaf.mark ++ leaf.mark :: right.map Leaf.mark) := by
    have marks := tree.marks_increasing
    rwa [leaves, List.map_append, List.map_cons] at marks
  have stacked := tree.stacked
  rw [leaves, List.map_append, List.map_cons] at stacked
  have regroup : {first.cell} + ({second.cell} + (chains (entriesLeft ++ entry :: entriesRight) +
      tree.others left right)) = levelCells tree.levels + ({first.cell} + {second.cell} +
        chains (entriesLeft ++ entry :: entriesRight) + (left.map Leaf.cells).sum + (right.map Leaf.cells).sum) := by
    rw [others]
    abel
  rw [regroup]
  refine (does_propagate walked stacked increasing (show leaf.mark.1 < second.mark.1 from apart)
    (List.forall_mem_map.mpr secondBelow)).mono ?_
  rintro root _ ⟨levels, stacked', rfl⟩
  obtain ⟨tree', root', leaves', levels'⟩ := tree.exists_split leaves mark' stacked' link
    (extra'.trans extra) apart firstBelow secondBelow (by rw [halves]; exact all)
  refine ⟨tree', root', ?_, ?_⟩
  · rw [bindings, leaves', ← halves]
    simp [pairs]
  · rw [cells, leaves', levels', ← halves, chains_append]
    simp only [List.map_append, List.map_cons, List.sum_append, List.sum_cons, Leaf.cells]
    abel

/-- Bytes of the item a payload gets in its leaf. -/
def itemLength (payload : Bytes) : Nat :=
  if payload.length ≤ maxInline then leafHeader + payload.length else overflowDescriptor

private theorem length_item (entry : Entry) : entry.item.length = itemLength entry.payload := by
  unfold Entry.item itemLength
  split
  · simp only [inlineItem, List.length_append, length_toLe, List.length_cons, leafHeader]
    omega
  · exact Entry.length_overflowItem _ _ _

/-- The leaf of a key holds nothing and has no room for a payload. -/
def Jammed (leaf : Leaf) (payload : Bytes) : Prop :=
  leaf.entries = [] ∧ leaf.page.freeSpace < Page.itemCost (itemLength payload)

/-- The error of an insertion into such a leaf. -/
def jamError : FerriteError := corrupt "a single entry does not fit in an empty leaf"

private theorem splitUp_jammed {root : PageId} {path : List PageId} (leaf : Leaf) (entry : Entry)
    (empty : leaf.entries = []) (inside : leaf.cell ∈ cells) :
    Runs (splitUp root leaf.id path 0 entry.item : PageProg σ PageId) cells
      fun result after => result = .error jamError ∧ after = cells := by
  have items : leaf.page.items.insertIdx 0 entry.item = [entry.item] := by
    rw [leaf.items, empty]
    rfl
  have fails : Runs (splitLeaf leaf.id 0 entry.item : PageProg σ (Key × PageId)) cells
      fun result after => result = .error jamError ∧ after = cells := by
    rw [splitLeaf]
    refine (does_withPage leaf.page inside).then ?_
    rintro _ _ ⟨rfl, rfl⟩
    dsimp only
    rw [items, if_pos (by simp)]
    exact Runs.fail ⟨rfl, rfl⟩
  rw [splitUp]
  refine fails.bind ?_ ?_
  · rintro result after ⟨wrong, -⟩
    cases wrong
  · rintro error after ⟨same, rfl⟩
    exact ⟨by rw [Except.error.inj same], rfl⟩

/-- Replacing the entry of a known key. -/
theorem does_replace (leaves : tree.leaves = left ++ leaf :: right) {path : List PageId}
    (walked : Path tree.levels (left.map Leaf.mark) leaf.mark (right.map Leaf.mark) path)
    {old : Entry} (entry : Entry) (entries : leaf.entries = entriesLeft ++ old :: entriesRight)
    (same : old.key = entry.key) (belongs : Belongs leaf right entriesLeft entriesRight entry) :
    Does (do
        releaseItem old.item
        let before ← withPageMut leaf.id fun page =>
          (page.replaceItem entriesLeft.length entry.item).getD page
        if (before.replaceItem entriesLeft.length entry.item).isSome then pure tree.root
        else do
          let _ ← withPageMut leaf.id fun page => page.removeItem entriesLeft.length
          splitUp tree.root leaf.id path entriesLeft.length entry.item : PageProg σ PageId)
      (↑entry.chain + tree.cells) (tree.Inserted entry.key entry.payload) := by
  have split : ↑entry.chain + tree.cells = ↑old.chain + ({(leaf.id, leaf.page)} +
      (chains (entriesLeft ++ entry :: entriesRight) + tree.others left right)) := by
    rw [tree.cells_entry leaves entries, chains_append, chains_cons, Leaf.cell]
    abel
  have items : leaf.page.items = entriesLeft.map Entry.item ++ old.item :: entriesRight.map Entry.item := by
    rw [leaf.items, entries]
    simp
  have count : (entriesLeft.map Entry.item).length = entriesLeft.length := List.length_map _
  rw [split]
  refine old.does_releaseItem.bind ?_
  rintro _ _ rfl
  refine (does_withPageMut leaf.id leaf.page _).bind ?_
  rintro _ _ ⟨rfl, rfl⟩
  obtain ⟨fewer, mark, page, entries'⟩ := exists_removed leaf entries
  cases replaced : leaf.page.replaceItem entriesLeft.length entry.item with
  | some after =>
    rw [if_pos (show (some after).isSome = true from rfl), Option.getD_some]
    rw [← count] at replaced
    obtain ⟨kind, extra, stored⟩ := Page.replaceItem_some items replaced
    obtain ⟨more, mark', page', entries''⟩ := exists_inserted fewer entry entries'
      (kind.trans (by rw [page]; rfl)) (by rw [stored]; simp)
      (le_of_eq_of_le (congrArg Prod.fst mark) belongs.from') belongs.below belongs.above
    have id : more.id = leaf.id := congrArg Prod.snd (mark'.trans mark)
    have inserted := tree.inserted_of_replaced leaves entry (mark'.trans mark) (by rw [page', extra])
      entries'' (Or.inr ⟨old, same, entries⟩) belongs
    rw [Leaf.cell, page', id] at inserted
    exact Does.pure inserted
  | none =>
    rw [if_neg (by simp), Option.getD_none]
    refine (does_withPageMut leaf.id leaf.page _).bind ?_
    rintro _ _ ⟨-, rfl⟩
    have some' : entriesLeft ++ entriesRight ≠ [] := by
      intro empty
      obtain ⟨rfl, rfl⟩ := List.append_eq_nil_iff.mp empty
      have own : Page.itemCost entry.item.length ≤ largestItem := entry.cost_item
      exact Page.replaceItem_single items (le_trans own (by decide)) replaced
    have id : fewer.id = leaf.id := congrArg Prod.snd mark
    have does := tree.does_splitUp (σ := σ) leaves walked fewer mark (by rw [page]; rfl) entries' some' entry
      belongs (by
        intro other member next inRight
        refine ((tree.bounds leaves).2 next inRight).2 other ?_
        rw [entries'] at member
        rw [entries]
        exact (List.Sublist.append_left (List.sublist_cons_self _ _) _).subset member)
    rw [Leaf.cell, page, id] at does
    refine does.mono ?_
    rintro root _ ⟨tree', root', bindings', rfl⟩
    refine ⟨tree', root', ext ?_, rfl⟩
    rw [tree.insert_entries entry leaves (Or.inr ⟨old, same, entries⟩) belongs]
    change tree'.bindings = _
    rw [bindings']
    simp

/-- Inserting an entry under a new key. -/
theorem runs_insert (leaves : tree.leaves = left ++ leaf :: right) {path : List PageId}
    (walked : Path tree.levels (left.map Leaf.mark) leaf.mark (right.map Leaf.mark) path)
    (entry : Entry) (entries : leaf.entries = entriesLeft ++ entriesRight)
    (belongs : Belongs leaf right entriesLeft entriesRight entry) :
    Runs (do
        let before ← withPageMut leaf.id fun page =>
          (page.insertItem entriesLeft.length entry.item).getD page
        if (before.insertItem entriesLeft.length entry.item).isSome then pure tree.root
        else splitUp tree.root leaf.id path entriesLeft.length entry.item : PageProg σ PageId)
      (↑entry.chain + tree.cells) fun result after =>
        (¬ Jammed leaf entry.payload ∧ ∃ root, result = .ok root ∧ tree.Inserted entry.key entry.payload root after) ∨
        (Jammed leaf entry.payload ∧ result = .error jamError ∧ after = ↑entry.chain + tree.cells) := by
  have split : ↑entry.chain + tree.cells = {(leaf.id, leaf.page)} +
      (chains (entriesLeft ++ entry :: entriesRight) + tree.others left right) := by
    rw [tree.cells_split leaves, Leaf.cells, entries, chains_append, chains_append, chains_cons, Leaf.cell]
    abel
  have count : (entriesLeft.map Entry.item).length = entriesLeft.length := List.length_map _
  rw [split]
  refine (does_withPageMut leaf.id leaf.page _).then ?_
  rintro _ _ ⟨rfl, rfl⟩
  by_cases room : Page.itemCost entry.item.length ≤ leaf.page.freeSpace
  · obtain ⟨page, inserted, kind, extra, stored, -⟩ := Page.insertItem_of_fits entriesLeft.length room
    have items : page.items = (entriesLeft ++ entry :: entriesRight).map Entry.item := by
      rw [stored, leaf.items, entries, List.map_append, ← count, insertIdx_split]
      simp
    obtain ⟨more, mark, page', entries'⟩ := exists_inserted leaf entry entries kind items belongs.from'
      belongs.below belongs.above
    have id : more.id = leaf.id := congrArg Prod.snd mark
    have result := tree.inserted_of_replaced leaves entry mark (by rw [page', extra]) entries'
      (Or.inl entries) belongs
    rw [Leaf.cell, page', id] at result
    rw [inserted, if_pos (show (some page).isSome = true from rfl), Option.getD_some]
    refine Runs.mono (Does.pure result) ?_
    rintro _ after ⟨root, rfl, holds⟩
    refine Or.inl ⟨fun jammed => ?_, root, rfl, holds⟩
    rw [length_item] at room
    exact absurd room (not_le.mpr jammed.2)
  · have full := Page.insertItem_eq_none entriesLeft.length room
    rw [full, if_neg (by simp), Option.getD_none]
    rw [length_item] at room
    by_cases empty : leaf.entries = []
    · obtain ⟨rfl, rfl⟩ := List.append_eq_nil_iff.mp (entries.symm.trans empty)
      refine (splitUp_jammed leaf entry empty (by simp [Leaf.cell])).mono ?_
      rintro _ _ ⟨rfl, rfl⟩
      exact Or.inr ⟨⟨empty, not_le.mp room⟩, rfl, rfl⟩
    · have some' : entriesLeft ++ entriesRight ≠ [] := entries ▸ empty
      refine Runs.mono (tree.does_splitUp leaves walked leaf rfl rfl entries some' entry belongs
        fun other member next inRight => ((tree.bounds leaves).2 next inRight).2 other member) ?_
      rintro _ _ ⟨root, rfl, tree', root', bindings', rfl⟩
      refine Or.inl ⟨fun jammed => empty jammed.1, root, rfl, tree', root', ext ?_, rfl⟩
      rw [tree.insert_entries entry leaves (Or.inl entries) belongs]
      change tree'.bindings = _
      rw [bindings']
      simp

/-- An insertion puts the binding into the tree, unless the leaf of the key is jammed; then
the tree is left as it is. -/
theorem runs_upsert (key : Key) {payload : Bytes} (fits : payload.length < 2 ^ 32) :
    Runs (upsert tree.root key payload : PageProg σ PageId) tree.cells fun result after =>
      ∃ left leaf right, tree.leaves = left ++ leaf :: right ∧ leaf.lo ≤ key ∧ (∀ other ∈ right, key < other.lo) ∧
        ((¬ Jammed leaf payload ∧ ∃ root, result = .ok root ∧ tree.Inserted key payload root after) ∨
          (Jammed leaf payload ∧ result = .error jamError ∧ ∃ lost, after = tree.cells + lost)) := by
  rw [upsert]
  refine (tree.does_descend key).then ?_
  rintro _ _ ⟨rfl, left, leaf, right, path, leaves, from', until', rfl, walked⟩
  dsimp only
  refine (does_buildItem key fits).then ?_
  rintro _ _ ⟨entry, rfl, rfl, rfl, rfl⟩
  refine (does_withPage leaf.page (Multiset.mem_add.mpr
    (Or.inr (tree.leaf_mem_cells (by simp [leaves]))))).then ?_
  rintro _ _ ⟨rfl, rfl⟩
  rcases slotSearch_leaf leaf entry.key with ⟨entriesLeft, old, entriesRight, entries, same, below, above, found⟩ |
    ⟨entriesLeft, entriesRight, entries, below, above, absent⟩
  · rw [found]
    dsimp only
    rw [item_split leaf entries]
    refine Runs.mono (tree.does_replace leaves walked entry entries same ⟨from', until', below, above⟩) ?_
    rintro _ after ⟨root, rfl, holds⟩
    refine ⟨left, leaf, right, leaves, from', until', Or.inl ⟨fun jammed => ?_, root, rfl, holds⟩⟩
    rw [jammed.1] at entries
    simp at entries
  · rw [absent]
    dsimp only
    refine (does_withPage leaf.page (Multiset.mem_add.mpr
      (Or.inr (tree.leaf_mem_cells (by simp [leaves]))))).then ?_
    rintro _ _ ⟨rfl, rfl⟩
    rw [absent]
    dsimp only
    refine (tree.runs_insert leaves walked entry entries ⟨from', until', below, above⟩).mono ?_
    rintro result after (⟨free, root, rfl, holds⟩ | ⟨jammed, rfl, rfl⟩)
    · exact ⟨left, leaf, right, leaves, from', until', Or.inl ⟨free, root, rfl, holds⟩⟩
    · exact ⟨left, leaf, right, leaves, from', until', Or.inr ⟨jammed, rfl, ↑entry.chain, add_comm _ _⟩⟩

end Tree
end Ferrite.Storage.BTree
