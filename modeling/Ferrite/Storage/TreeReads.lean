import Ferrite.Storage.TreeSplit

/-!
# Reading a tree

The pages and the bindings of a tree around one of its leaves, and what the reading
operations of the B-tree return: the answers of the map the tree stores.
-/

namespace Ferrite.Storage.BTree

open PageProg

variable {σ : Type} {cells : Multiset Cell}

/-! ## Chains of leaves -/

variable {first : PageId} {left right : List Cell} {cell new : Cell}

private theorem Chained.replace (chained : Chained first (left ++ cell :: right)) (id : new.1 = cell.1)
    (extra : new.2.extra = cell.2.extra) : Chained first (left ++ new :: right) := by
  induction left generalizing first with
  | nil =>
    obtain ⟨head, rest⟩ := chained
    exact ⟨head.trans id.symm, extra ▸ rest⟩
  | cons other left ih =>
    obtain ⟨head, rest⟩ := chained
    exact ⟨head, ih rest⟩

theorem Chained.split {next : Cell} (chained : Chained first (left ++ cell :: right)) (id : new.1 = cell.1)
    (link : new.2.extra = next.1) (extra : next.2.extra = cell.2.extra) :
    Chained first (left ++ new :: next :: right) := by
  induction left generalizing first with
  | nil =>
    obtain ⟨head, rest⟩ := chained
    exact ⟨head.trans id.symm, link, extra ▸ rest⟩
  | cons other left ih =>
    obtain ⟨head, rest⟩ := chained
    exact ⟨head, ih rest⟩

namespace Tree

variable (tree : Tree) {left right : List Leaf} {leaf : Leaf}

/-! ## Around one leaf -/

/-- The pages of a tree beside those of one leaf. -/
def others (tree : Tree) (left right : List Leaf) : Multiset Cell :=
  (left.map Leaf.cells).sum + (right.map Leaf.cells).sum + levelCells tree.levels

variable {entriesLeft entriesRight : List Entry} {entry : Entry}

theorem cells_split (leaves : tree.leaves = left ++ leaf :: right) :
    tree.cells = leaf.cells + tree.others left right := by
  rw [cells, others, leaves]
  simp only [List.map_append, List.map_cons, List.sum_append, List.sum_cons]
  abel

theorem bounds (leaves : tree.leaves = left ++ leaf :: right) :
    (∀ other ∈ left, other.lo < leaf.lo ∧ ∀ entry ∈ other.entries, entry.key < leaf.lo) ∧
      ∀ other ∈ right, leaf.lo < other.lo ∧ ∀ entry ∈ leaf.entries, entry.key < other.lo := by
  have ordered := tree.ordered
  rw [leaves] at ordered
  obtain ⟨-, rest, across⟩ := List.pairwise_append.mp ordered
  exact ⟨fun other member => across other member leaf List.mem_cons_self, (List.pairwise_cons.mp rest).1⟩

/-- Bindings of the leaves before and after one leaf. -/
def pairs (leaves : List Leaf) : List (Key × Bytes) :=
  (leaves.flatMap Leaf.entries).map fun entry => (entry.key, entry.payload)

private theorem bindings_split (leaves : tree.leaves = left ++ leaf :: right) :
    tree.bindings = pairs left ++ (leaf.entries.map fun entry => (entry.key, entry.payload)) ++ pairs right := by
  rw [bindings, leaves]
  simp [pairs]

private theorem pairs_left_lt {key : Key} (leaves : tree.leaves = left ++ leaf :: right) (from' : leaf.lo ≤ key) :
    ∀ binding ∈ pairs left, binding.1 < key := by
  intro binding member
  obtain ⟨entry, inEntries, rfl⟩ := List.mem_map.mp member
  obtain ⟨other, inLeft, inOther⟩ := List.mem_flatMap.mp inEntries
  exact lt_of_lt_of_le (((tree.bounds leaves).1 other inLeft).2 entry inOther) from'

private theorem pairs_right_gt {key : Key} (until' : ∀ other ∈ right, key < other.lo) :
    ∀ binding ∈ pairs right, key < binding.1 := by
  intro binding member
  obtain ⟨entry, inEntries, rfl⟩ := List.mem_map.mp member
  obtain ⟨other, inRight, inOther⟩ := List.mem_flatMap.mp inEntries
  exact lt_of_lt_of_le (until' other inRight) (other.above entry inOther)

/-- The same tree with another leaf in one place. -/
theorem exists_replace (leaves : tree.leaves = left ++ leaf :: right) (new : Leaf)
    (mark : new.mark = leaf.mark) (extra : new.page.extra = leaf.page.extra)
    (bounded : ∀ entry ∈ new.entries, ∀ other ∈ right, entry.key < other.lo) :
    ∃ tree' : Tree, tree'.root = tree.root ∧ tree'.leaves = left ++ new :: right ∧ tree'.levels = tree.levels := by
  have id : new.id = leaf.id := congrArg Prod.snd mark
  have lo : new.lo = leaf.lo := congrArg Prod.fst mark
  refine ⟨⟨tree.root, left ++ new :: right, tree.levels, ?_, ?_, ?_⟩, rfl, rfl, rfl⟩
  · have stacked := tree.stacked
    rw [leaves, List.map_append, List.map_cons] at stacked
    rw [List.map_append, List.map_cons, mark]
    exact stacked
  · have ordered := tree.ordered
    rw [leaves] at ordered
    obtain ⟨leftOk, rest, -⟩ := List.pairwise_append.mp ordered
    obtain ⟨leafBelow, rightOk⟩ := List.pairwise_cons.mp rest
    obtain ⟨before, -⟩ := tree.bounds leaves
    refine List.pairwise_append.mpr ⟨leftOk, List.pairwise_cons.mpr ⟨?_, rightOk⟩, ?_⟩
    · intro other member
      exact ⟨by rw [lo]; exact (leafBelow other member).1, fun entry inside =>
        bounded entry inside other member⟩
    · intro first inLeft second member
      rcases List.mem_cons.mp member with rfl | inRight
      · rw [lo]
        exact before first inLeft
      · exact (List.pairwise_append.mp ordered).2.2 first inLeft second (List.mem_cons_of_mem _ inRight)
  · obtain ⟨first, chained⟩ := tree.chained
    rw [leaves, List.map_append, List.map_cons] at chained
    refine ⟨first, ?_⟩
    rw [List.map_append, List.map_cons]
    exact Chained.replace chained id extra

theorem others_eq {tree' : Tree} (levels : tree'.levels = tree.levels) :
    tree'.others left right = tree.others left right := by
  rw [others, others, levels]

/-! ## Reading -/

/-- Where a key is, or belongs, in the leaf a descent ends at. -/
theorem slotSearch_leaf (leaf : Leaf) (key : Key) :
    (∃ entriesLeft entry entriesRight, leaf.entries = entriesLeft ++ entry :: entriesRight ∧
      entry.key = key ∧ (∀ other ∈ entriesLeft, other.key < key) ∧
      (∀ other ∈ entriesRight, key < other.key) ∧ slotSearch leaf.page key = .ok entriesLeft.length) ∨
    ∃ entriesLeft entriesRight, leaf.entries = entriesLeft ++ entriesRight ∧
      (∀ other ∈ entriesLeft, other.key < key) ∧ (∀ other ∈ entriesRight, key < other.key) ∧
      slotSearch leaf.page key = .error entriesLeft.length :=
  slotSearch_cases leaf.items Entry.itemKey_item leaf.ordered key

theorem item_split (leaf : Leaf) (entries : leaf.entries = entriesLeft ++ entry :: entriesRight) :
    leaf.page.item entriesLeft.length = entry.item := by
  rw [Page.item, leaf.items, entries]
  simp [List.getD_eq_getElem?_getD]

/-- The overflow pages of one entry of the tree, and all others. -/
theorem cells_entry (leaves : tree.leaves = left ++ leaf :: right)
    (entries : leaf.entries = entriesLeft ++ entry :: entriesRight) : tree.cells = ↑entry.chain +
      ({leaf.cell} + chains entriesLeft + chains entriesRight + tree.others left right) := by
  rw [tree.cells_split leaves, Leaf.cells, entries, chains_append, chains_cons]
  abel

private theorem does_payloadOf (leaves : tree.leaves = left ++ leaf :: right)
    (entries : leaf.entries = entriesLeft ++ entry :: entriesRight) :
    Does (payloadOf entry.item : PageProg σ Bytes) tree.cells fun result after =>
      result = entry.payload ∧ after = tree.cells := by
  rw [tree.cells_entry leaves entries]
  exact entry.does_payloadOf

section

variable {tree} {entriesLeft entriesRight : List Entry} {entry : Entry} {key : Key}

/-- A key's binding among the others, when the leaf has it. -/
theorem entries_present (leaves : tree.leaves = left ++ leaf :: right)
    (entries : leaf.entries = entriesLeft ++ entry :: entriesRight) :
    tree.denote.entries = (pairs left ++ entriesLeft.map fun entry => (entry.key, entry.payload)) ++
      (entry.key, entry.payload) :: ((entriesRight.map fun entry => (entry.key, entry.payload)) ++ pairs right) := by
  change tree.bindings = _
  rw [tree.bindings_split leaves, entries]
  simp

/-- The bindings before and after a key the leaf does not have. -/
theorem entries_absent (leaves : tree.leaves = left ++ leaf :: right)
    (entries : leaf.entries = entriesLeft ++ entriesRight) :
    tree.denote.entries = (pairs left ++ entriesLeft.map fun entry => (entry.key, entry.payload)) ++
      ((entriesRight.map fun entry => (entry.key, entry.payload)) ++ pairs right) := by
  change tree.bindings = _
  rw [tree.bindings_split leaves, entries]
  simp

theorem before_lt (leaves : tree.leaves = left ++ leaf :: right) (from' : leaf.lo ≤ key)
    (below : ∀ other ∈ entriesLeft, other.key < key) :
    ∀ binding ∈ pairs left ++ entriesLeft.map (fun entry => (entry.key, entry.payload)), binding.1 < key := by
  intro binding member
  rcases List.mem_append.mp member with inLeft | inLeaf
  · exact tree.pairs_left_lt leaves from' binding inLeft
  · obtain ⟨other, inEntries, rfl⟩ := List.mem_map.mp inLeaf
    exact below other inEntries

theorem after_gt (until' : ∀ other ∈ right, key < other.lo)
    (above : ∀ other ∈ entriesRight, key < other.key) :
    ∀ binding ∈ (entriesRight.map fun entry => (entry.key, entry.payload)) ++ pairs right, key < binding.1 := by
  intro binding member
  rcases List.mem_append.mp member with inLeaf | inRight
  · obtain ⟨other, inEntries, rfl⟩ := List.mem_map.mp inLeaf
    exact above other inEntries
  · exact pairs_right_gt until' binding inRight

end

theorem does_lookup (key : Key) :
    Does (lookup tree.root key : PageProg σ (Option Bytes)) tree.cells fun result after =>
      result = tree.denote.find? key ∧ after = tree.cells := by
  rw [lookup]
  refine (tree.does_descend key).bind ?_
  rintro _ _ ⟨rfl, left, leaf, right, path, leaves, from', until', rfl, -⟩
  refine (does_withPage leaf.page (tree.leaf_mem_cells (by simp [leaves]))).bind ?_
  rintro _ _ ⟨rfl, rfl⟩
  rcases slotSearch_leaf leaf key with ⟨entriesLeft, entry, entriesRight, entries, rfl, below, above, found⟩ |
    ⟨entriesLeft, entriesRight, entries, below, above, absent⟩
  · rw [found]
    dsimp only
    rw [item_split leaf entries]
    refine (tree.does_payloadOf leaves entries).bind ?_
    rintro _ _ ⟨rfl, rfl⟩
    exact Does.pure ⟨(tree.denote.find?_present (entries_present leaves entries)).symm, rfl⟩
  · rw [absent]
    exact Does.pure ⟨(tree.denote.find?_absent (entries_absent leaves entries)
      (before_lt leaves from' below) (after_gt until' above)).symm, rfl⟩

/-! ## Walking the leaves -/

private theorem Chained.tail {first : PageId} {left right : List Cell} {cell : Cell}
    (chained : Chained first (left ++ cell :: right)) : Chained cell.2.extra right := by
  induction left generalizing first with
  | nil => exact chained.2
  | cons other left ih => exact ih chained.2

/-- A search in a leaf ends at the first entry that is not below the key. -/
theorem position_leaf (leaf : Leaf) (start : Key) :
    (∃ entriesLeft entry entriesRight, leaf.entries = entriesLeft ++ entry :: entriesRight ∧
      (∀ other ∈ entriesLeft, other.key < start) ∧ start ≤ entry.key ∧
      position (slotSearch leaf.page start) = entriesLeft.length) ∨
    ((∀ other ∈ leaf.entries, other.key < start) ∧ position (slotSearch leaf.page start) = leaf.entries.length) := by
  rcases slotSearch_leaf leaf start with ⟨entriesLeft, entry, entriesRight, entries, here, below, -, found⟩ |
    ⟨entriesLeft, entriesRight, entries, below, above, absent⟩
  · exact Or.inl ⟨entriesLeft, entry, entriesRight, entries, below, le_of_eq here.symm, by rw [found]; rfl⟩
  · cases entriesRight with
    | nil =>
      rw [List.append_nil] at entries
      exact Or.inr ⟨entries ▸ below, by rw [absent, entries]; rfl⟩
    | cons entry entriesRight =>
      exact Or.inl ⟨entriesLeft, entry, entriesRight, entries, below,
        le_of_lt (above entry List.mem_cons_self), by rw [absent]; rfl⟩

private theorem does_seekFrom {fuel : Nat} {start : Key} (leaves : tree.leaves = left ++ leaf :: right)
    (before : ∀ binding ∈ pairs left, binding.1 < start)
    (real : ∀ other ∈ tree.leaves, other.id ≠ noPage) (enough : right.length < fuel) :
    Does (seekFrom start fuel leaf.id : PageProg σ (Option (Key × Bytes))) tree.cells
      fun result after => result = tree.denote.seek start ∧ after = tree.cells := by
  induction fuel generalizing left leaf right with
  | zero => exact absurd enough (Nat.not_lt_zero _)
  | succ fuel ih =>
    have member : leaf.cell ∈ tree.cells := tree.leaf_mem_cells (by simp [leaves])
    have count : leaf.page.slotCount = leaf.entries.length := by simp [Page.slotCount, leaf.items]
    have beforeLeaf : ∀ entriesLeft : List Entry, (∀ other ∈ entriesLeft, other.key < start) →
        ∀ binding ∈ pairs left ++ entriesLeft.map (fun entry => (entry.key, entry.payload)), binding.1 < start := by
      intro entriesLeft below binding inside
      rcases List.mem_append.mp inside with inLeft | inLeaf
      · exact before binding inLeft
      · obtain ⟨other, inEntries, rfl⟩ := List.mem_map.mp inLeaf
        exact below other inEntries
    rw [seekFrom]
    refine (does_withPage leaf.page member).bind ?_
    rintro _ _ ⟨rfl, rfl⟩
    dsimp only
    rcases position_leaf leaf start with ⟨entriesLeft, entry, entriesRight, entries, below, above, hit⟩ |
      ⟨below, miss⟩
    · have inside : entriesLeft.length < leaf.page.slotCount := by
        rw [count, entries, List.length_append, List.length_cons]
        omega
      rw [hit, if_pos inside, item_split leaf entries]
      refine (tree.does_payloadOf leaves entries).bind ?_
      rintro _ _ ⟨rfl, rfl⟩
      rw [Entry.itemKey_item]
      exact Does.pure ⟨(tree.denote.seek_split (entries_present leaves entries)
        (beforeLeaf entriesLeft below) above).symm, rfl⟩
    · rw [miss, count, if_neg (lt_irrefl _)]
      refine (does_withPage leaf.page member).bind ?_
      rintro _ _ ⟨rfl, rfl⟩
      obtain ⟨first, chained⟩ := tree.chained
      rw [leaves, List.map_append, List.map_cons] at chained
      have link : Chained leaf.page.extra (right.map Leaf.cell) := Chained.tail chained
      cases right with
      | nil =>
        rw [if_pos (show leaf.page.extra = noPage from link)]
        have all : tree.denote.entries = pairs left ++ leaf.entries.map fun entry => (entry.key, entry.payload) := by
          change tree.bindings = _
          rw [tree.bindings_split leaves]
          simp [pairs]
        refine Does.pure ⟨(tree.denote.seek_eq_none ?_).symm, rfl⟩
        rw [all]
        exact beforeLeaf leaf.entries below
      | cons next right =>
        have next' : leaf.page.extra = next.id := link.1
        have leaves' : tree.leaves = (left ++ [leaf]) ++ next :: right := by rw [leaves]; simp
        rw [next', if_neg (real next (by simp [leaves]))]
        refine ih leaves' ?_ (by simpa using enough)
        have joined : pairs (left ++ [leaf]) =
            pairs left ++ leaf.entries.map fun entry => (entry.key, entry.payload) := by simp [pairs]
        rw [joined]
        exact beforeLeaf leaf.entries below

theorem does_seek (start : Key) :
    Does (seek tree.root start : PageProg σ (Option (Key × Bytes))) tree.cells fun result after =>
      result = tree.denote.seek start ∧ after = tree.cells := by
  refine Runs.of_distinct fun distinct => ?_
  have few := (tree.leaves_distinct distinct).length_lt
  rw [List.length_map] at few
  rw [seek]
  refine (tree.does_descend start).bind ?_
  rintro _ _ ⟨rfl, left, leaf, right, path, leaves, from', -, rfl, -⟩
  refine tree.does_seekFrom leaves (tree.pairs_left_lt leaves from') (fun other member => ?_) ?_
  · exact distinct.2 other.cell (tree.leaf_mem_cells member)
  · rw [leaves, List.length_append, List.length_cons] at few
    rw [walkLimit]
    omega

end Tree
end Ferrite.Storage.BTree
