import Mathlib.Data.Nat.Log

/-!
# Folding by halves

Joining neighbours in rounds until one is left builds a tree over the list. Its leaves are
the list in order and its height is the logarithm of the length. An operation that is
associative does not see the difference from the chain that joins from the left.
-/

namespace Ferrite.Logical.Balance

variable {α β ε : Type}

/-- One round: join each element with its neighbour. One without stays. -/
def pairUp (join : α → α → α) : List α → List α
  | first :: second :: rest => join first second :: pairUp join rest
  | few => few

/-- Rounds until at most one is left. -/
def halve (join : α → α → α) : Nat → List α → List α
  | 0, list => list
  | rounds + 1, list => if 1 < list.length then halve join rounds (pairUp join list) else list

variable {join : α → α → α} {join' : β → β → β} {image : α → β} {bound : Nat}

/-- A fold that pairs up in every round until one is left gives that one. -/
theorem fold_of_halve {fold : Nat → List α → α} {rounds : Nat} {list : List α} {built : α}
    (single : ∀ rounds built, fold rounds [built] = built)
    (round : ∀ rounds first second rest,
      fold (rounds + 1) (first :: second :: rest) = fold rounds (pairUp join (first :: second :: rest)))
    (halved : halve join rounds list = [built]) : fold rounds list = built := by
  induction rounds generalizing list with
  | zero =>
    rw [halve] at halved
    rw [halved, single]
  | succ rounds ih =>
    rcases list with _ | ⟨first, _ | ⟨second, rest⟩⟩
    · cases halved
    · cases halved
      exact single _ _
    · rw [halve, if_pos (by simp)] at halved
      rw [round]
      exact ih halved

private theorem length_pairUp (join : α → α → α) (list : List α) : (pairUp join list).length = (list.length + 1) / 2
    := by
  fun_induction pairUp join list with
  | case1 first second rest ih =>
    rw [List.length_cons, ih, List.length_cons, List.length_cons]
    omega
  | case2 few isFew =>
    rcases few with _ | ⟨first, _ | ⟨second, rest⟩⟩
    · simp
    · simp
    · exact absurd rfl (isFew first second rest)

/-- A function that commutes with joining commutes with the rounds. -/
theorem map_pairUp (commutes : ∀ left right, image (join left right) = join' (image left) (image right))
    (list : List α) : (pairUp join list).map image = pairUp join' (list.map image) := by
  fun_induction pairUp join list with
  | case1 first second rest ih => simp [pairUp, commutes, ih]
  | case2 few isFew =>
    rcases few with _ | ⟨first, _ | ⟨second, rest⟩⟩
    · rfl
    · rfl
    · exact absurd rfl (isFew first second rest)

private theorem map_halve (commutes : ∀ left right, image (join left right) = join' (image left) (image right))
    (rounds : Nat)
    (list : List α) : (halve join rounds list).map image = halve join' rounds (list.map image) := by
  induction rounds generalizing list with
  | zero => rfl
  | succ rounds ih =>
    rw [halve, halve, List.length_map]
    split
    · rw [ih, map_pairUp commutes]
    · rfl

/-! ## Trees -/

/-- A tree that says in which order the list of its leaves is joined. -/
inductive Grouping (α : Type) where
  | leaf (value : α)
  | node (left right : Grouping α)

namespace Grouping

def leaves : Grouping α → List α
  | .leaf value => [value]
  | .node left right => left.leaves ++ right.leaves

/-- Joins above a leaf at most. -/
def height : Grouping α → Nat
  | .leaf _ => 0
  | .node left right => max left.height right.height + 1

def fold (join : α → α → α) : Grouping α → α
  | .leaf value => value
  | .node left right => join (left.fold join) (right.fold join)

def map (image : α → β) : Grouping α → Grouping β
  | .leaf value => .leaf (image value)
  | .node left right => .node (left.map image) (right.map image)

/-- Replace the leaves from left to right. -/
def traverse (visit : α → Except ε β) : Grouping α → Except ε (Grouping β)
  | .leaf value => do
    let visited ← visit value
    pure (.leaf visited)
  | .node left right => do
    let visitedLeft ← left.traverse visit
    let visitedRight ← right.traverse visit
    pure (.node visitedLeft visitedRight)

/-- Joining from the left. -/
def chain (first : α) (rest : List α) : Grouping α := rest.foldl (fun tree value => .node tree (.leaf value)) (.leaf first)

theorem leaves_ne_nil (tree : Grouping α) : tree.leaves ≠ [] := by
  induction tree with
  | leaf value => exact List.cons_ne_nil _ _
  | node left right left_ih _ => exact fun empty => left_ih (List.append_eq_nil_iff.mp empty).1

private theorem leaves_foldl (tree : Grouping α) (rest : List α) :
    (rest.foldl (fun tree value => .node tree (.leaf value)) tree).leaves = tree.leaves ++ rest := by
  induction rest generalizing tree with
  | nil => simp
  | cons value rest ih => simp [ih, leaves]

theorem leaves_chain (first : α) (rest : List α) : (chain first rest).leaves = first :: rest :=
  leaves_foldl (.leaf first) rest

theorem fold_chain (join : α → α → α) (first : α) (rest : List α) :
    (chain first rest).fold join = rest.foldl join first := by
  have general : ∀ tree : Grouping α, (rest.foldl (fun tree value => .node tree (.leaf value)) tree).fold join =
      rest.foldl join (tree.fold join) := by
    induction rest with
    | nil => exact fun _ => rfl
    | cons value rest ih => exact fun tree => ih (.node tree (.leaf value))
  exact general (.leaf first)

theorem leaves_map (image : α → β) (tree : Grouping α) : (tree.map image).leaves = tree.leaves.map image := by
  induction tree with
  | leaf value => rfl
  | node left right left_ih right_ih => simp [map, leaves, left_ih, right_ih]

/-- Two trees over one list are traversed alike: both stop with the same error, or both give
trees over one list. -/
theorem traverse_leaves (visit : α → Except ε β) (tree : Grouping α) :
    leaves <$> tree.traverse visit = tree.leaves.mapM visit := by
  induction tree with
  | leaf value =>
    rw [traverse, leaves, List.mapM_cons, List.mapM_nil]
    cases visit value <;> rfl
  | node left right left_ih right_ih =>
    rw [traverse, leaves, List.mapM_append, ← left_ih, ← right_ih]
    cases left.traverse visit <;> cases right.traverse visit <;> rfl

theorem traverse_of_leaves_eq (visit : α → Except ε β) {one other : Grouping α} (same : one.leaves = other.leaves) :
    (∃ e, one.traverse visit = .error e ∧ other.traverse visit = .error e) ∨
      ∃ first second, one.traverse visit = .ok first ∧ other.traverse visit = .ok second ∧
        first.leaves = second.leaves := by
  have leaves := (traverse_leaves visit one).trans ((congrArg (List.mapM visit) same).trans (traverse_leaves visit other).symm)
  cases first : one.traverse visit with
  | error e =>
    rw [first] at leaves
    cases second : other.traverse visit with
    | error e' =>
      rw [second] at leaves
      cases leaves
      exact .inl ⟨e, rfl, rfl⟩
    | ok second' =>
      rw [second] at leaves
      cases leaves
  | ok first' =>
    rw [first] at leaves
    cases second : other.traverse visit with
    | error e =>
      rw [second] at leaves
      cases leaves
    | ok second' =>
      rw [second] at leaves
      exact .inr ⟨first', second', rfl, rfl, Except.ok.inj leaves⟩

theorem shape_traverse {visit : α → Except ε β} {tree : Grouping α} {visited : Grouping β}
    (traversed : tree.traverse visit = .ok visited) :
    visited.height = tree.height ∧ visited.leaves.length = tree.leaves.length := by
  induction tree generalizing visited with
  | leaf value =>
    rw [traverse] at traversed
    cases found : visit value with
    | error e =>
      rw [found] at traversed
      cases traversed
    | ok result =>
      rw [found] at traversed
      cases traversed
      exact ⟨rfl, rfl⟩
  | node left right left_ih right_ih =>
    rw [traverse] at traversed
    cases visitedLeft : left.traverse visit with
    | error e =>
      rw [visitedLeft] at traversed
      cases traversed
    | ok leftResult =>
      cases visitedRight : right.traverse visit with
      | error e =>
        rw [visitedLeft, visitedRight] at traversed
        cases traversed
      | ok rightResult =>
        rw [visitedLeft, visitedRight] at traversed
        cases traversed
        obtain ⟨leftHeight, leftLength⟩ := left_ih visitedLeft
        obtain ⟨rightHeight, rightLength⟩ := right_ih visitedRight
        constructor
        · rw [height, height, leftHeight, rightHeight]
        · rw [leaves, leaves, List.length_append, List.length_append, leftLength, rightLength]

/-- A traversal that commutes with joining is one of the joined tree. -/
theorem fold_traverse {join : α → α → α} {join' : β → β → β} {visit : α → Except ε β}
    (commutes : ∀ left right, visit (join left right) = do
      let visitedLeft ← visit left
      let visitedRight ← visit right
      pure (join' visitedLeft visitedRight)) (tree : Grouping α) :
    visit (tree.fold join) = fold join' <$> tree.traverse visit := by
  induction tree with
  | leaf value =>
    rw [fold, traverse]
    cases visit value <;> rfl
  | node left right left_ih right_ih =>
    rw [fold, commutes, left_ih, right_ih, traverse]
    cases left.traverse visit <;> cases right.traverse visit <;> rfl

/-- An associative operation sees only the leaves. -/
theorem fold_eq_foldl {op : β → β → β} (assoc : ∀ a b c, op (op a b) c = op a (op b c)) (tree : Grouping β) {first : β}
    {rest : List β} (leaves : tree.leaves = first :: rest) : tree.fold op = rest.foldl op first := by
  induction tree generalizing first rest with
  | leaf value =>
    obtain ⟨rfl, rfl⟩ := List.cons.inj leaves
    rfl
  | node left right left_ih right_ih =>
    obtain ⟨leftFirst, leftRest, leftLeaves⟩ := List.exists_cons_of_ne_nil left.leaves_ne_nil
    obtain ⟨rightFirst, rightRest, rightLeaves⟩ := List.exists_cons_of_ne_nil right.leaves_ne_nil
    rw [Grouping.leaves, leftLeaves, rightLeaves, List.cons_append] at leaves
    obtain ⟨rfl, rfl⟩ := List.cons.inj leaves
    have pull : ∀ (list : List β) (a b : β), op a (list.foldl op b) = list.foldl op (op a b) := by
      intro list
      induction list with
      | nil => exact fun _ _ => rfl
      | cons head list ih => exact fun a b => by rw [List.foldl_cons, ih, ← assoc, List.foldl_cons]
    rw [fold, left_ih leftLeaves, right_ih rightLeaves, List.foldl_append, List.foldl_cons, pull]

end Grouping

/-! ## The tree of the rounds -/

private theorem flatMap_leaves_pairUp (trees : List (Grouping α)) :
    (pairUp .node trees).flatMap Grouping.leaves = trees.flatMap Grouping.leaves := by
  fun_induction pairUp Grouping.node trees with
  | case1 first second rest ih => simp [Grouping.leaves, ih]
  | case2 few _ => rfl

variable {trees : List (Grouping α)}

private theorem height_pairUp (low : ∀ tree ∈ trees, tree.height ≤ bound) :
    ∀ tree ∈ pairUp .node trees, tree.height ≤ bound + 1 := by
  fun_induction pairUp Grouping.node trees with
  | case1 first second rest ih =>
    intro tree member
    obtain rfl | later := List.mem_cons.mp member
    · have one := low first (by simp)
      have two := low second (by simp)
      simp only [Grouping.height]
      omega
    · exact ih (fun other inRest => low other (by simp [inRest])) tree later
  | case2 few _ => exact fun tree member => Nat.le_succ_of_le (low tree member)

private theorem single_tree (some : trees ≠ []) (few : ¬1 < trees.length) (low : ∀ tree ∈ trees, tree.height ≤ bound) :
    ∃ tree, trees = [tree] ∧ tree.leaves = trees.flatMap Grouping.leaves ∧
      tree.height ≤ bound + Nat.clog 2 trees.length := by
  match trees, some with
  | [tree], _ => exact ⟨tree, rfl, by simp, Nat.le_trans (low tree (by simp)) (Nat.le_add_right _ _)⟩
  | _ :: _ :: _, _ => exact absurd (by simp) few

/-- The rounds leave one tree, over all leaves in order, and not taller than the logarithm. -/
theorem halve_trees {rounds : Nat} (some : trees ≠ []) (enough : trees.length ≤ rounds + 1)
    (low : ∀ tree ∈ trees, tree.height ≤ bound) :
    ∃ tree, halve .node rounds trees = [tree] ∧ tree.leaves = trees.flatMap Grouping.leaves ∧
      tree.height ≤ bound + Nat.clog 2 trees.length := by
  induction rounds generalizing trees bound with
  | zero => exact single_tree some (Nat.not_lt_of_ge enough) low
  | succ rounds ih =>
    rw [halve]
    split
    · rename_i several
      have length := length_pairUp Grouping.node trees
      have someLeft : pairUp Grouping.node trees ≠ [] := by
        intro empty
        rw [empty] at length
        simp only [List.length_nil] at length
        omega
      obtain ⟨tree, one, leaves, height⟩ := ih someLeft (by omega) (height_pairUp low)
      refine ⟨tree, one, leaves.trans (flatMap_leaves_pairUp trees), ?_⟩
      have logarithm : Nat.clog 2 trees.length = Nat.clog 2 ((trees.length + 1) / 2) + 1 :=
        Nat.clog_of_two_le (Nat.le_refl 2) several
      rw [length] at height
      omega
    · rename_i few
      exact single_tree some few low

/-- A list joined along a tree not taller than the logarithm of its length. -/
def Balanced (join : α → α → α) (operands : List α) (built : α) : Prop :=
  ∃ tree : Grouping α, built = tree.fold join ∧ tree.leaves = operands ∧ tree.height ≤ Nat.clog 2 operands.length

/-- Halving a list leaves it joined and balanced. -/
theorem halve_balanced (join : α → α → α) (first : α) (rest : List α) :
    ∃ built, halve join (rest.length + 1) (first :: rest) = [built] ∧ Balanced join (first :: rest) built := by
  have some : (first :: rest).map Grouping.leaf ≠ [] := List.cons_ne_nil _ _
  have low : ∀ tree ∈ (first :: rest).map Grouping.leaf, tree.height ≤ 0 := by
    intro tree member
    obtain ⟨value, -, rfl⟩ := List.mem_map.mp member
    exact Nat.le_refl 0
  have enough : ((first :: rest).map Grouping.leaf).length ≤ rest.length + 1 + 1 := by simp
  obtain ⟨tree, one, leaves, height⟩ := halve_trees some enough low
  refine ⟨tree.fold join, ?_, tree, rfl, ?_, ?_⟩
  · have joined : (halve Grouping.node (rest.length + 1) ((first :: rest).map .leaf)).map (Grouping.fold join) =
        halve join (rest.length + 1) (((first :: rest).map .leaf).map (Grouping.fold join)) :=
      map_halve (fun _ _ => rfl) _ _
    have plain : ((first :: rest).map Grouping.leaf).map (Grouping.fold join) = first :: rest := by
      rw [List.map_map]
      exact List.map_id _
    rw [one, plain] at joined
    exact joined.symm
  · rw [leaves, List.flatMap_map]
    exact List.flatMap_singleton' _
  · simpa using height

end Ferrite.Logical.Balance
