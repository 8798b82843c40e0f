import Ferrite.Storage.Overflow
import Ferrite.Storage.TreePages

/-!
# The shape of a tree

A tree as it stands in its pages: a row of leaves in key order, each linked to the next,
and rows of internal nodes above it up to a single root. A page in a row is marked by the
least key it may hold; the children of a row of nodes, from left to right, are the marks
of the row below. A descent follows one key from the root to its leaf.
-/

namespace Ferrite.Storage.BTree

open Logical PageProg

/-- The least key of a page's range, and the page. -/
abbrev Mark := Key × PageId

/-- The overflow pages of some entries. -/
def chains (entries : List Entry) : Multiset Cell := (entries.map fun entry => (entry.chain : Multiset Cell)).sum

variable {marks top : List Mark}

theorem chains_append (left right : List Entry) : chains (left ++ right) = chains left + chains right := by
  simp [chains]

theorem chains_cons (entry : Entry) (entries : List Entry) :
    chains (entry :: entries) = ↑entry.chain + chains entries := by
  simp [chains]

/-- A leaf, with what its items stand for. -/
structure Leaf where
  lo : Key
  id : PageId
  page : Page
  entries : List Entry
  kind : page.kind = .leaf
  items : page.items = entries.map Entry.item
  ordered : entries.Pairwise fun first second => first.key < second.key
  above : ∀ entry ∈ entries, lo ≤ entry.key

def internalItem : Nat := keyLen + 4

/-- An internal node, with the separators and children of its items. No item was ever
removed from it, so its item area has no holes. -/
structure Node where
  lo : Key
  id : PageId
  page : Page
  slots : List Mark
  kind : page.kind = .internal
  items : page.items = slots.map fun slot => makeInternalItem slot.1 slot.2
  packed : page.freeEnd = pageSize - internalItem * slots.length
  several : slots ≠ []

namespace Leaf

def mark (leaf : Leaf) : Mark := (leaf.lo, leaf.id)

def cell (leaf : Leaf) : Cell := (leaf.id, leaf.page)

/-- The page and the overflow pages of the entries. -/
def cells (leaf : Leaf) : Multiset Cell := {leaf.cell} + chains leaf.entries

end Leaf

namespace Node

def mark (node : Node) : Mark := (node.lo, node.id)

def cell (node : Node) : Cell := (node.id, node.page)

/-- The children, the leftmost one first. -/
def kids (node : Node) : List Mark := (node.lo, node.page.extra) :: node.slots

end Node

/-- Marks in strictly increasing key order. -/
def Increasing (marks : List Mark) : Prop := marks.Pairwise fun first second => first.1 < second.1

/-- Rows of internal nodes over a row of pages, the lowest row first, up to a row at the top. -/
def Stacked : List Mark → List (List Node) → List Mark → Prop
  | marks, [], top => top = marks
  | marks, nodes :: levels, top => nodes.flatMap Node.kids = marks ∧ Stacked (nodes.map Node.mark) levels top

/-- The nodes above a page, the lowest first: each is the node that has the last one among
its children. -/
def Path : List (List Node) → List Mark → Mark → List Mark → List PageId → Prop
  | [], _, _, _, path => path = []
  | nodes :: levels, left, mark, right, path =>
    ∃ nodesLeft node nodesRight kidsLeft kidsRight rest,
      nodes = nodesLeft ++ node :: nodesRight ∧ node.kids = kidsLeft ++ mark :: kidsRight ∧
      left = nodesLeft.flatMap Node.kids ++ kidsLeft ∧
      right = kidsRight ++ nodesRight.flatMap Node.kids ∧ path = node.id :: rest ∧
      Path levels (nodesLeft.map Node.mark) node.mark (nodesRight.map Node.mark) rest

def rowCells (nodes : List Node) : Multiset Cell := (nodes.map fun node => {node.cell}).sum

def levelCells (levels : List (List Node)) : Multiset Cell := (levels.map rowCells).sum

/-- A tree in its pages. -/
structure Tree where
  root : PageId
  leaves : List Leaf
  levels : List (List Node)
  stacked : Stacked (leaves.map Leaf.mark) levels [(0, root)]
  ordered : leaves.Pairwise fun first second =>
    first.lo < second.lo ∧ ∀ entry ∈ first.entries, entry.key < second.lo
  chained : ∃ first, Chained first (leaves.map Leaf.cell)

namespace Tree

/-- All pages of the tree. -/
def cells (tree : Tree) : Multiset Cell := (tree.leaves.map Leaf.cells).sum + levelCells tree.levels

/-- The bindings of the tree, in key order. -/
def bindings (tree : Tree) : List (Key × Bytes) :=
  (tree.leaves.flatMap Leaf.entries).map fun entry => (entry.key, entry.payload)

private theorem entries_ordered (tree : Tree) :
    (tree.leaves.flatMap Leaf.entries).Pairwise fun first second => first.key < second.key := by
  refine List.pairwise_flatMap.mpr ⟨fun leaf _ => leaf.ordered, ?_⟩
  refine tree.ordered.imp ?_
  rintro first second ⟨-, bounded⟩ entry inFirst other inSecond
  exact lt_of_lt_of_le (bounded entry inFirst) (second.above other inSecond)

/-- The map the tree stores. -/
def denote (tree : Tree) : OrderedMap Key Bytes := ⟨tree.bindings, List.pairwise_map.mpr tree.entries_ordered⟩

theorem marks_increasing (tree : Tree) : Increasing (tree.leaves.map Leaf.mark) :=
  List.pairwise_map.mpr (tree.ordered.imp fun both => both.1)

end Tree

/-! ## Rows -/

theorem Increasing.sublist {fewer : List Mark} (increasing : Increasing marks) (sub : fewer.Sublist marks) :
    Increasing fewer := List.Pairwise.sublist sub increasing

/-- Nodes stand in the order of their children. -/
theorem increasing_nodes {nodes : List Node} (increasing : Increasing (nodes.flatMap Node.kids)) :
    Increasing (nodes.map Node.mark) := by
  obtain ⟨-, across⟩ := List.pairwise_flatMap.mp increasing
  refine List.pairwise_map.mpr (across.imp ?_)
  intro first second apart
  exact apart (first.lo, first.page.extra) List.mem_cons_self (second.lo, second.page.extra) List.mem_cons_self

theorem internalChild_makeInternalItem (key : Key) (child : PageId) :
    internalChild (makeInternalItem key child) = child := by
  have bytes : ((makeInternalItem key child).drop keyLen).take 4 = toLe 4 child.val := by
    rw [makeInternalItem, List.drop_left' (length_toLe _ _)]
    exact List.take_of_length_le (by simp)
  rw [internalChild, leField, bytes, ofLe_toLe_of_lt (Fin.isLt child)]
  simp

theorem itemKey_makeInternalItem (slot : Mark) : itemKey (makeInternalItem slot.1 slot.2) = slot.1 :=
  Entry.itemKey_toLe _ _

private theorem Node.item_split (node : Node) {left right : List Mark} {slot : Mark}
    (slots : node.slots = left ++ slot :: right) : node.page.item left.length = makeInternalItem slot.1 slot.2 := by
  rw [Page.item, node.items, slots]
  simp [List.getD_eq_getElem?_getD]

private theorem Node.slots_ordered (node : Node) (increasing : Increasing node.kids) :
    node.slots.Pairwise fun first second => first.1 < second.1 := (List.pairwise_cons.mp increasing).2

/-- The child a node gives for a key is the last one whose range starts at or before it. -/
theorem Node.childFor_eq (node : Node) {key : Key} (increasing : Increasing node.kids) (from' : node.lo ≤ key) :
    ∃ left kid right, node.kids = left ++ kid :: right ∧ kid.1 ≤ key ∧
      (∀ other ∈ right, key < other.1) ∧ childFor node.page key = kid.2 := by
  rcases slotSearch_cases node.items itemKey_makeInternalItem (node.slots_ordered increasing) key with
    ⟨left, slot, right, slots, here, -, above, found⟩ | ⟨left, right, slots, below, above, absent⟩
  · refine ⟨(node.lo, node.page.extra) :: left, slot, right, ?_, le_of_eq here, above, ?_⟩
    · rw [Node.kids, slots, List.cons_append]
    · rw [childFor, found]
      dsimp only
      rw [node.item_split slots, internalChild_makeInternalItem]
  · rcases List.eq_nil_or_concat left with rfl | ⟨before, last, rfl⟩
    · refine ⟨[], (node.lo, node.page.extra), right, ?_, from', above, ?_⟩
      · rw [Node.kids, slots, List.nil_append]
        rfl
      · rw [childFor, absent]
        rfl
    · have slots' : node.slots = before ++ last :: right := by rw [slots]; simp
      refine ⟨(node.lo, node.page.extra) :: before, last, right, ?_, ?_, above, ?_⟩
      · rw [Node.kids, slots', List.cons_append]
      · exact le_of_lt (below last (by simp))
      · rw [childFor, absent, List.length_concat]
        dsimp only
        rw [node.item_split slots', internalChild_makeInternalItem]

variable {levels : List (List Node)}

private theorem stacked_append {nodes : List Node} (stacked : Stacked marks (levels ++ [nodes]) top) :
    Stacked marks levels (nodes.flatMap Node.kids) ∧ top = nodes.map Node.mark := by
  induction levels generalizing marks with
  | nil =>
    obtain ⟨kids, same⟩ := stacked
    exact ⟨kids, same⟩
  | cons lowest levels ih =>
    obtain ⟨kids, stacked⟩ := stacked
    obtain ⟨below, same⟩ := ih stacked
    exact ⟨⟨kids, below⟩, same⟩

private theorem Stacked.increasing (stacked : Stacked marks levels top) (increasing : Increasing marks) :
    Increasing top := by
  induction levels generalizing marks with
  | nil =>
    obtain rfl := stacked
    exact increasing
  | cons nodes levels ih =>
    obtain ⟨rfl, stacked⟩ := stacked
    exact ih stacked (increasing_nodes increasing)

/-! ## Descent -/

/-- Nodes are in the pages a program is given. -/
def NodesIn (cells : Multiset Cell) (levels : List (List Node)) : Prop :=
  ∀ nodes ∈ levels, ∀ node ∈ nodes, node.cell ∈ cells

variable {σ : Type} {cells : Multiset Cell}

/-- From a page that is `upper.length` levels down, the descent goes through the `lower`
levels, the last of them first. -/
theorem does_descendFrom {key : Key} {leaves : List Leaf} {lower upper : List (List Node)}
    {fuel : Nat} {left right : List Mark} {mark : Mark} {path : List PageId}
    (stacked : Stacked (leaves.map Leaf.mark) lower (left ++ mark :: right))
    (increasing : Increasing (leaves.map Leaf.mark)) (walked : Path upper left mark right path)
    (from' : mark.1 ≤ key) (until' : ∀ other ∈ right, key < other.1)
    (nodesIn : NodesIn cells lower) (leavesIn : ∀ leaf ∈ leaves, leaf.cell ∈ cells)
    (enough : lower.length < fuel) :
    Does (descendFrom key fuel mark.2 path : PageProg σ (PageId × List PageId)) cells
      fun result after => after = cells ∧ ∃ leavesLeft leaf leavesRight whole,
        leaves = leavesLeft ++ leaf :: leavesRight ∧ leaf.lo ≤ key ∧
        (∀ other ∈ leavesRight, key < other.lo) ∧ result = (leaf.id, whole) ∧
        Path (lower ++ upper) (leavesLeft.map Leaf.mark) leaf.mark (leavesRight.map Leaf.mark)
          whole := by
  induction lower using List.reverseRecOn generalizing upper fuel left right mark path with
  | nil =>
    obtain ⟨fuel, rfl⟩ := Nat.exists_eq_succ_of_ne_zero (Nat.ne_zero_of_lt enough)
    have row : left ++ mark :: right = leaves.map Leaf.mark := stacked
    obtain ⟨leavesLeft, rest, rfl, rfl, tail⟩ := List.map_eq_append_iff.mp row.symm
    obtain ⟨leaf, leavesRight, rfl, rfl, rfl⟩ := List.map_eq_cons_iff.mp tail
    rw [descendFrom]
    refine (does_withPage leaf.page (leavesIn leaf (by simp))).bind ?_
    rintro _ _ ⟨rfl, rfl⟩
    rw [leaf.kind]
    refine Does.pure ⟨rfl, leavesLeft, leaf, leavesRight, path, rfl, from', ?_, rfl, walked⟩
    exact fun other member => until' _ (List.mem_map_of_mem member)
  | append_singleton lower nodes ih =>
    obtain ⟨fuel, rfl⟩ := Nat.exists_eq_succ_of_ne_zero (Nat.ne_zero_of_lt enough)
    obtain ⟨below, row⟩ := stacked_append stacked
    obtain ⟨nodesLeft, rest, rfl, rfl, tail⟩ := List.map_eq_append_iff.mp row.symm
    obtain ⟨node, nodesRight, rfl, rfl, rfl⟩ := List.map_eq_cons_iff.mp tail
    have rowIncreasing := below.increasing increasing
    rw [List.flatMap_append, List.flatMap_cons] at rowIncreasing below
    have own : Increasing node.kids :=
      rowIncreasing.sublist ((List.sublist_append_left _ _).trans (List.sublist_append_right _ _))
    obtain ⟨kidsLeft, kid, kidsRight, kids, kidFrom, kidUntil, child⟩ := node.childFor_eq own from'
    rw [descendFrom]
    refine (does_withPage node.page (nodesIn (nodesLeft ++ node :: nodesRight) (by simp) node (by simp))).bind ?_
    rintro _ _ ⟨rfl, rfl⟩
    rw [node.kind]
    dsimp only
    rw [child]
    have regroup : nodesLeft.flatMap Node.kids ++ (node.kids ++ nodesRight.flatMap Node.kids) =
        (nodesLeft.flatMap Node.kids ++ kidsLeft) ++ kid :: (kidsRight ++ nodesRight.flatMap Node.kids) := by
      rw [kids]
      simp
    rw [regroup] at below
    have later : ∀ other ∈ kidsRight ++ nodesRight.flatMap Node.kids, key < other.1 := by
      intro other member
      rcases List.mem_append.mp member with inNode | inRight
      · exact kidUntil other inNode
      · -- a child of a later node starts no earlier than that node
        obtain ⟨next, inNodes, inKids⟩ := List.mem_flatMap.mp inRight
        have start := until' next.mark (List.mem_map_of_mem inNodes)
        have rightIncreasing : Increasing (nodesRight.flatMap Node.kids) :=
          rowIncreasing.sublist ((List.sublist_append_right _ _).trans (List.sublist_append_right _ _))
        have nextIncreasing : Increasing next.kids := (List.pairwise_flatMap.mp rightIncreasing).1 next inNodes
        rcases List.mem_cons.mp inKids with rfl | inSlots
        · exact start
        · exact lt_trans start ((List.pairwise_cons.mp nextIncreasing).1 other inSlots)
    have path' : Path ((nodesLeft ++ node :: nodesRight) :: upper)
        (nodesLeft.flatMap Node.kids ++ kidsLeft) kid (kidsRight ++ nodesRight.flatMap Node.kids)
        (node.id :: path) :=
      ⟨nodesLeft, node, nodesRight, kidsLeft, kidsRight, path, rfl, kids, rfl, rfl, rfl, walked⟩
    have rest := ih below path' kidFrom later
      (fun row member => nodesIn row (by simp [member])) (by simpa using enough)
    rw [List.append_assoc]
    exact rest

private theorem length_flatMap_kids (nodes : List Node) : 2 * nodes.length ≤ (nodes.flatMap Node.kids).length := by
  induction nodes with
  | nil => simp
  | cons node nodes ih =>
    have slots : 0 < node.slots.length := List.length_pos_iff.mpr node.several
    simp only [List.flatMap_cons, List.length_append, List.length_cons, Node.kids]
    omega

/-- Every level at least halves the number of pages. -/
theorem Stacked.length (stacked : Stacked marks levels top) : top.length * 2 ^ levels.length ≤ marks.length := by
  induction levels generalizing marks with
  | nil =>
    obtain rfl := stacked
    simp
  | cons nodes levels ih =>
    obtain ⟨rfl, stacked⟩ := stacked
    have above := ih stacked
    rw [List.length_map] at above
    calc top.length * 2 ^ (levels.length + 1) = 2 * (top.length * 2 ^ levels.length) := by ring
      _ ≤ 2 * nodes.length := Nat.mul_le_mul_left 2 above
      _ ≤ (nodes.flatMap Node.kids).length := length_flatMap_kids nodes

private theorem mem_sum_of_mem {parts : List (Multiset Cell)} {part : Multiset Cell} {cell : Cell}
    (member : part ∈ parts) (inside : cell ∈ part) : cell ∈ parts.sum := by
  obtain ⟨before, after, rfl⟩ := List.append_of_mem member
  simp [inside]

namespace Tree

/-- The leaves of a tree are among its pages. -/
theorem leaf_mem_cells (tree : Tree) {leaf : Leaf} (member : leaf ∈ tree.leaves) : leaf.cell ∈ tree.cells := by
  have own : leaf.cell ∈ leaf.cells := by simp [Leaf.cells]
  have inLeaves : leaf.cell ∈ (tree.leaves.map Leaf.cells).sum := mem_sum_of_mem (List.mem_map_of_mem member) own
  exact Multiset.mem_add.mpr (Or.inl inLeaves)

private theorem node_mem_cells (tree : Tree) : NodesIn tree.cells tree.levels := by
  intro nodes inLevels node inNodes
  have inRow : node.cell ∈ rowCells nodes :=
    mem_sum_of_mem (List.mem_map_of_mem inNodes) (Multiset.mem_singleton_self _)
  have inLevel : node.cell ∈ levelCells tree.levels := mem_sum_of_mem (List.mem_map_of_mem inLevels) inRow
  exact Multiset.mem_add.mpr (Or.inr inLevel)

theorem leaves_distinct (tree : Tree) (distinct : Distinct tree.cells) : Distinct ↑(tree.leaves.map Leaf.cell) := by
  have inLeaves : ∀ leaves : List Leaf, ((leaves.map Leaf.cell : List Cell) : Multiset Cell) ≤
      (leaves.map Leaf.cells).sum := by
    intro leaves
    induction leaves with
    | nil => simp
    | cons leaf leaves ih =>
      rw [List.map_cons, List.map_cons, List.sum_cons, ← Multiset.cons_coe, ← Multiset.singleton_add,
        Leaf.cells, add_assoc]
      exact add_le_add_right (le_trans ih (Multiset.le_add_left _ _)) _
  obtain ⟨rest, split⟩ := Multiset.le_iff_exists_add.mp
    (le_trans (inLeaves tree.leaves) (Multiset.le_add_right _ (levelCells tree.levels)))
  rw [cells, split] at distinct
  exact distinct.left

/-- A tree has at most 31 levels of internal nodes. -/
theorem depth_lt (tree : Tree) (distinct : Distinct tree.cells) : tree.levels.length < 32 := by
  have few := (tree.leaves_distinct distinct).length_lt
  have halves := tree.stacked.length
  rw [List.length_map] at few halves
  rw [List.length_singleton, Nat.one_mul] at halves
  exact (Nat.pow_lt_pow_iff_right (by decide)).mp (lt_of_le_of_lt halves few)

/-- The leaf a key belongs to, and the nodes above it. -/
theorem does_descend (tree : Tree) (key : Key) :
    Does (descend tree.root key : PageProg σ (PageId × List PageId)) tree.cells
      fun result after => after = tree.cells ∧ ∃ left leaf right whole,
        tree.leaves = left ++ leaf :: right ∧ leaf.lo ≤ key ∧ (∀ other ∈ right, key < other.lo) ∧
        result = (leaf.id, whole) ∧
        Path tree.levels (left.map Leaf.mark) leaf.mark (right.map Leaf.mark) whole := by
  refine Runs.of_distinct fun distinct => ?_
  have depth := tree.depth_lt distinct
  have top : Stacked (tree.leaves.map Leaf.mark) tree.levels ([] ++ (0, tree.root) :: []) := tree.stacked
  have start : Path [] [] (0, tree.root) [] [] := rfl
  have does := does_descendFrom (σ := σ) top tree.marks_increasing start (Fin.zero_le key) (by simp)
    tree.node_mem_cells (fun leaf member => tree.leaf_mem_cells member) (show tree.levels.length < 64 by omega)
  rw [List.append_nil] at does
  exact does

end Tree

end Ferrite.Storage.BTree
