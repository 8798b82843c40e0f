import Ferrite.Storage.FiniteMap

/-!
# When an insertion is refused

The one error an insertion can end with, other than a pager's: the leaf of the key holds no
entry, and the holes of removed ones leave less contiguous space than the item needs. A
sequence of calls may go on after a call that failed.
-/

namespace Ferrite.Storage.BTree

open Logical PageProg

section

variable {S ρ : Type} (answer : {β : Type} → PagerCall β → S → Except (Stop ρ) (Except FerriteError β × S))

/-- Calls on a tree, in turn; a call that failed leaves the root as it was. -/
def attempts : List TreeOp → PageId → S → Except (Stop ρ) (Except FerriteError PageId × S)
  | [], root, store => .ok (.ok root, store)
  | op :: rest, root, store =>
    match Prog.run answer (op.run root) () store with
    | .error stop => .error stop
    | .ok (.ok root', _, store') => attempts rest root' store'
    | .ok (.error _, _, store') => attempts rest root store'

/-- A new tree and the calls on it, whether they succeed or not. -/
def buildTrying (ops : List TreeOp) (store : S) : Except (Stop ρ) (Except FerriteError PageId × S) :=
  match Prog.run answer create () store with
  | .error stop => .error stop
  | .ok (.error error, _, store') => .ok (.error error, store')
  | .ok (.ok root, _, store') => attempts answer ops root store'

private theorem attempts_append (ops more : List TreeOp) (root : PageId) (store : S) :
    attempts answer (ops ++ more) root store =
      match attempts answer ops root store with
      | .error stop => .error stop
      | .ok (.error error, store') => .ok (.error error, store')
      | .ok (.ok root', store') => attempts answer more root' store' := by
  induction ops generalizing root store with
  | nil => rfl
  | cons op rest ih =>
    rw [List.cons_append, attempts, attempts]
    split
    · rfl
    · exact ih _ _
    · exact ih _ _

end

/-- The leaf a descent for the key ends at has no item and too little free space for the
item of the payload. -/
def Jams (pager : Pager) (root : PageId) (key : Key) (payload : Bytes) : Prop :=
  ∃ leaf path after page, (descend root key).onPager () pager = .ok (.ok (leaf, path), (), after) ∧
    pager.held leaf = some page ∧ page.items = [] ∧
    page.freeSpace < Page.itemCost (Tree.itemLength payload)

namespace Tree

variable (tree : Tree) {cells : Multiset Cell} {map : PageMap} {pager : Pager}

private theorem leaf_unique {key : Key} {left right left' right' : List Leaf} {leaf leaf' : Leaf}
    (leaves : tree.leaves = left ++ leaf :: right) (from' : leaf.lo ≤ key)
    (until' : ∀ other ∈ right, key < other.lo) (leaves' : tree.leaves = left' ++ leaf' :: right')
    (from'' : leaf'.lo ≤ key) (until'' : ∀ other ∈ right', key < other.lo) : leaf = leaf' := by
  have same := leaves.symm.trans leaves'
  rcases List.append_eq_append_iff.mp same with ⟨between, rfl, rest⟩ | ⟨between, rfl, rest⟩
  · cases between with
    | nil => exact (List.cons.inj rest).1
    | cons head between =>
      obtain ⟨-, rfl⟩ := List.cons.inj rest
      exact absurd (until' leaf' (by simp)) (not_lt.mpr from'')
  · cases between with
    | nil => exact (List.cons.inj rest).1.symm
    | cons head between =>
      obtain ⟨-, rfl⟩ := List.cons.inj rest
      exact absurd (until'' leaf (by simp)) (not_lt.mpr from')

/-- On a pager, the leaf of a key jams an insertion exactly if it does so in the tree. -/
theorem jams_iff (holds : pager.Holds map) (heap : Heap map (tree.cells + cells)) {key : Key} (payload : Bytes)
    {left right : List Leaf} {leaf : Leaf} (leaves : tree.leaves = left ++ leaf :: right) (from' : leaf.lo ≤ key)
    (until' : ∀ other ∈ right, key < other.lo) : Jams pager tree.root key payload ↔ Jammed leaf payload := by
  obtain ⟨_, _, after, _, ran, -, -, -, _, rfl, -, left', leaf', right', path, leaves', from'', until'', rfl, -⟩ :=
    (tree.does_descend key).onPager holds heap ((noAlloc_descendFrom _ _ _ _).ne_full () map)
  obtain rfl := tree.leaf_unique leaves from' until' leaves' from'' until''
  have held : pager.held leaf.id = some leaf.page := by
    have member : leaf.cell ∈ tree.cells + cells :=
      Multiset.mem_add.mpr (Or.inl (tree.leaf_mem_cells (by simp [leaves])))
    obtain ⟨rest, split⟩ := Multiset.exists_cons_of_mem member
    rw [split, ← Multiset.singleton_add] at heap
    obtain ⟨stored, real⟩ := heap.held
    rw [holds.pages leaf.id real, stored]
  have empty : leaf.page.items = [] ↔ leaf.entries = [] := by rw [leaf.items, List.map_eq_nil_iff]
  constructor
  · rintro ⟨id, path', after', page, ran', held', none, narrow⟩
    obtain ⟨⟨rfl, -⟩, -⟩ : (leaf.id = id ∧ path = path') ∧ after = after' := by simpa using ran.symm.trans ran'
    obtain rfl := Option.some.inj (held.symm.trans held')
    exact ⟨empty.mp none, narrow⟩
  · rintro ⟨none, narrow⟩
    exact ⟨leaf.id, path, after, leaf.page, ran, held, empty.mpr none, narrow⟩

/-- Calls that may fail leave a tree, and perhaps pages nobody owns. -/
theorem attempts_tree (holds : pager.Holds map) (heap : Heap map (tree.cells + cells))
    (ops : List TreeOp) (short : ∀ op ∈ ops, op.Short)
    (room : attempts (fun op map => map.answer op) ops tree.root map ≠ .error (.refused .full)) :
    ∃ map' pager', ∃ tree' : Tree, ∃ rest,
      attempts (fun op map => map.answer op) ops tree.root map = .ok (.ok tree'.root, map') ∧
      attempts (fun op pager => pager.answer op) ops tree.root pager = .ok (.ok tree'.root, pager') ∧
      pager'.Holds map' ∧ Heap map' (tree'.cells + rest) := by
  induction ops generalizing tree cells map pager with
  | nil => exact ⟨map, pager, tree, cells, rfl, rfl, holds, heap⟩
  | cons op others ih =>
    have others' : ∀ other ∈ others, other.Short := fun other member =>
      short other (List.mem_cons_of_mem _ member)
    rw [attempts] at room ⊢
    rw [attempts]
    have fits : (op.run tree.root).onMap () map ≠ .error (.refused .full) := by
      intro full
      rw [onMap] at full
      rw [full] at room
      exact room rfl
    obtain ⟨result, map', pager', all, ran, mapRan, held, heap', outcome⟩ :=
      (tree.runs_op op (short op List.mem_cons_self)).onPager holds heap fits
    rw [onMap] at mapRan
    rw [PageProg.onPager] at ran
    rw [mapRan] at room ⊢
    rw [ran]
    rcases outcome with ⟨tree', rfl, -, rfl⟩ | ⟨rfl, lost, rfl⟩
    · exact ih tree' held heap' others' room
    · rw [add_assoc] at heap'
      exact ih tree held heap' others' room

end Tree

/-- An insertion into a tree built by any calls, some of which may have failed, returns
exactly if the leaf of its key is not jammed, and if it is, the insertion reports that
a single entry does not fit. -/
theorem insert_refused_iff_jammed {map : PageMap} {pager pager' : Pager} {root : PageId}
    {others : Multiset Cell} (holds : pager.Holds map) (heap : Heap map others) (ops : List TreeOp)
    (key : Key) (payload : Bytes) (short : ∀ op ∈ ops ++ [.upsert key payload], op.Short)
    (room : buildTrying (fun op map => map.answer op) (ops ++ [.upsert key payload]) map ≠ .error (.refused .full))
    (built : buildTrying (fun op pager => pager.answer op) ops pager = .ok (.ok root, pager')) :
    ∃ result after, (upsert root key payload).onPager () pager' = .ok (result, (), after) ∧
      (result.isOk = true ↔ ¬ Jams pager' root key payload) ∧
      ∀ error, result = .error error → error = Tree.jamError := by
  have fits : create.onMap () map ≠ .error (.refused .full) := by
    intro full
    rw [onMap] at full
    rw [buildTrying, full] at room
    exact room rfl
  have heap₀ : Heap map (0 + others) := by rwa [zero_add]
  obtain ⟨_, map₁, pager₁, all, ran, mapRan, held, heap₁, root₁, rfl, tree, rfl, -, rfl⟩ :=
    Runs.onPager does_create holds heap₀ fits
  rw [onMap] at mapRan
  rw [PageProg.onPager] at ran
  rw [buildTrying, mapRan] at room
  rw [buildTrying, ran] at built
  dsimp only at room built
  rw [attempts_append] at room
  rw [add_zero] at heap₁
  have room₁ : attempts (fun op map => map.answer op) ops tree.root map₁ ≠ .error (.refused .full) := by
    intro full
    rw [full] at room
    exact room rfl
  obtain ⟨map₂, pager₂, tree', rest, onMaps, onPagers, held', heap₂⟩ := tree.attempts_tree held heap₁ ops
    (fun op member => short op (List.mem_append_left _ member)) room₁
  obtain ⟨rfl, rfl⟩ : tree'.root = root ∧ pager₂ = pager' := by simpa using onPagers.symm.trans built
  rw [onMaps] at room
  have room₂ : (upsert tree'.root key payload).onMap () map₂ ≠ .error (.refused .full) := by
    intro full
    rw [onMap] at full
    dsimp only at room
    rw [attempts, TreeOp.run, full] at room
    exact room rfl
  obtain ⟨result, _, after, _, ran', -, -, -, left, leaf, right, leaves, from', until', outcome⟩ :=
    (tree'.runs_upsert key (short (.upsert key payload) (by simp))).onPager held' heap₂ room₂
  have jams := tree'.jams_iff held' heap₂ payload leaves from' until'
  refine ⟨result, after, ran', ?_, ?_⟩
  · rw [jams]
    rcases outcome with ⟨free, root, rfl, -⟩ | ⟨jammed, rfl, -⟩
    · simp [free, Except.isOk, Except.toBool]
    · simp [jammed, Except.isOk, Except.toBool]
  · rintro error rfl
    rcases outcome with ⟨-, root, wrong, -⟩ | ⟨-, same, -⟩
    · cases wrong
    · exact Except.error.inj same

private theorem eq_ok_of_toOption {ε α : Type} {result : Except ε α} {value : α}
    (same : result.toOption = some value) : result = .ok value := by
  cases result with
  | error error => cases same
  | ok other => rw [Option.some.inj same]

theorem insert_refused_iff_jammed_second_key :
    ∃ pager root pager' result after, Pager.openFiles .steady 8 true .empty = .ok pager ∧
      buildTrying (fun op pager => pager.answer op) [.upsert 1 [7]] pager = .ok (.ok root, pager') ∧
      (upsert root 2 [8]).onPager () pager' = .ok (result, (), after) ∧
      (result.isOk = true ↔ ¬ Jams pager' root 2 [8]) := by
  obtain ⟨pager, opened, content⟩ := Pager.openFiles_empty .steady 8 true
  have holds := Pager.holds_of_opened (fun _ => rfl) opened
  rw [content] at holds
  have built : ((Pager.openFiles .steady 8 true .empty).toOption.bind fun pager =>
      (buildTrying (fun op pager => pager.answer op) [.upsert 1 [7]] pager).toOption.bind fun pair =>
        pair.1.toOption) = some 1 := by decide +kernel
  have room : (buildTrying (fun op map => map.answer op) ([.upsert 1 [7]] ++ [.upsert 2 [8]])
      (PageMap.recovered .empty Meta.fresh)).toOption.isSome = true := by decide +kernel
  rw [opened] at built
  obtain ⟨_, same, built⟩ := Option.bind_eq_some_iff.mp built
  obtain rfl := Option.some.inj same
  obtain ⟨⟨result, pager'⟩, ran, rootIs⟩ := Option.bind_eq_some_iff.mp built
  obtain rfl := eq_ok_of_toOption rootIs
  have ran' := eq_ok_of_toOption ran
  obtain ⟨result, after, returned, exact', -⟩ := insert_refused_iff_jammed holds (Heap.fresh _) [.upsert 1 [7]]
    2 [8] (by simp [TreeOp.Short]) (by intro full; rw [full] at room; cases room) ran'
  exact ⟨pager, 1, pager', result, after, opened, ran', returned, exact'⟩

/-- Four payloads of 2000 bytes fill a leaf. Once they are removed, the leaf refuses a payload
of 200 bytes. -/
theorem emptied_leaf_refuses : ((Pager.openFiles .steady 8 true .empty).toOption.map fun pager =>
      match buildTrying (fun op pager => pager.answer op)
          (([1, 2, 3, 4].map fun key => .upsert key (List.replicate 2000 7)) ++ [1, 2, 3, 4].map .remove) pager with
      | .ok (.ok root, pager') => ended ((upsert root 5 (List.replicate 200 7)).onPager () pager')
      | _ => none) = some (some (.error Tree.jamError)) := by
  decide +kernel

end Ferrite.Storage.BTree
