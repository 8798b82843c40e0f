import Ferrite.Storage.TreeUpdates

/-!
# The B+-tree is a finite map

Any calls on a new tree, on a pager, as operations on a map: what the calls return is what
the map has, as long as the allocator has page numbers left.
-/

namespace Ferrite.Storage.BTree

open Logical PageProg

variable {σ : Type}

/-! ## Calls that only read or free -/

variable {state : σ} {map : PageMap} {root : PageId}

theorem noAlloc_descendFrom (key : Key) (fuel : Nat) (id : PageId) (path : List PageId) :
    NoAlloc (descendFrom key fuel id path : PageProg σ (PageId × List PageId)) := by
  induction fuel generalizing id path with
  | zero => trivial
  | succ fuel ih =>
    refine (noAlloc_withPage id).bind fun page => ?_
    split
    · trivial
    · exact ih _ _
    · trivial

private theorem noAlloc_readChain (fuel : Nat) (id : PageId) (out : Bytes) :
    NoAlloc (readChain fuel id out : PageProg σ Bytes) := by
  induction fuel generalizing id out with
  | zero => trivial
  | succ fuel ih =>
    rw [readChain]
    split
    · trivial
    · refine (noAlloc_withPage id).bind fun page => ?_
      split
      · trivial
      · split
        · trivial
        · exact ih _ _

private theorem noAlloc_payloadOf (item : Bytes) : NoAlloc (payloadOf item : PageProg σ Bytes) := by
  unfold payloadOf
  split
  · trivial
  · split
    · trivial
    · split
      · split
        · trivial
        · refine (noAlloc_readChain _ _ _).bind fun out => ?_
          split <;> trivial
      · trivial

private theorem noAlloc_freeChain (fuel : Nat) (id : PageId) : NoAlloc (freeChain fuel id : PageProg σ Unit) := by
  induction fuel generalizing id with
  | zero => trivial
  | succ fuel ih =>
    rw [freeChain]
    split
    · trivial
    · exact (noAlloc_withPage id).bind fun page => (noAlloc_freePage id).bind fun _ => ih _

private theorem noAlloc_releaseItem (item : Bytes) : NoAlloc (releaseItem item : PageProg σ Unit) := by
  unfold releaseItem
  split
  · exact noAlloc_freeChain _ _
  · trivial

private theorem noAlloc_lookup (root : PageId) (key : Key) : NoAlloc (lookup root key : PageProg σ (Option Bytes)) := by
  refine (noAlloc_descendFrom _ _ _ _).bind fun found => ?_
  refine (noAlloc_withPage _).bind fun page => ?_
  split
  · exact (noAlloc_payloadOf _).bind fun _ => trivial
  · trivial

private theorem noAlloc_seekFrom (start : Key) (fuel : Nat) (leaf : PageId) :
    NoAlloc (seekFrom start fuel leaf : PageProg σ (Option (Key × Bytes))) := by
  induction fuel generalizing leaf with
  | zero => trivial
  | succ fuel ih =>
    refine (noAlloc_withPage _).bind fun page => ?_
    dsimp only
    split
    · exact (noAlloc_payloadOf _).bind fun _ => trivial
    · refine (noAlloc_withPage _).bind fun page => ?_
      split
      · trivial
      · exact ih _

private theorem noAlloc_seek (root : PageId) (start : Key) : NoAlloc
    (seek root start : PageProg σ (Option (Key × Bytes))) :=
  (noAlloc_descendFrom _ _ _ _).bind fun _ => noAlloc_seekFrom _ _ _

private theorem noAlloc_remove (root : PageId) (key : Key) : NoAlloc (remove root key : PageProg σ Bool) := by
  refine (noAlloc_descendFrom _ _ _ _).bind fun found => ?_
  refine (noAlloc_withPage _).bind fun page => ?_
  split
  · exact (noAlloc_releaseItem _).bind fun _ => (noAlloc_withPageMut _ _).bind fun _ => trivial
  · trivial

/-! ## Sequences of calls -/

/-- A call that changes a tree. -/
inductive TreeOp where
  | upsert (key : Key) (payload : Bytes)
  | remove (key : Key)

namespace TreeOp

/-- The call; the result is the root afterwards. -/
def run (root : PageId) : TreeOp → PageProg σ PageId
  | .upsert key payload => BTree.upsert root key payload
  | .remove key => do
    let _ ← BTree.remove root key
    pure root

/-- What the call means for a map. -/
def apply (map : OrderedMap Key Bytes) : TreeOp → OrderedMap Key Bytes
  | .upsert key payload => map.insert key payload
  | .remove key => map.erase key

/-- The payload has a length the format can record. -/
def Short : TreeOp → Prop
  | .upsert _ payload => payload.length < 2 ^ 32
  | .remove _ => True

instance : DecidablePred Short
  | .upsert _ payload => inferInstanceAs (Decidable (payload.length < 2 ^ 32))
  | .remove _ => .isTrue trivial

end TreeOp

/-- Calls on a tree, in turn, up to the first error. -/
def runOps : List TreeOp → PageId → PageProg σ PageId
  | [], root => pure root
  | op :: rest, root => do
    let root ← op.run root
    runOps rest root

/-- A new tree and the calls on it. -/
def build (ops : List TreeOp) : PageProg σ PageId := do
  let root ← create
  runOps ops root

/-- The map the calls denote. -/
def denoted (ops : List TreeOp) : OrderedMap Key Bytes := ops.foldl TreeOp.apply .empty

variable {cells : Multiset Cell}

theorem Tree.runs_op (tree : Tree) (op : TreeOp) (short : op.Short) :
    Runs (op.run tree.root : PageProg σ PageId) tree.cells fun result after =>
      (∃ tree' : Tree, result = .ok tree'.root ∧ tree'.denote = op.apply tree.denote ∧
        after = tree'.cells) ∨ (result = .error Tree.jamError ∧ ∃ lost, after = tree.cells + lost) := by
  cases op with
  | upsert key payload =>
    refine (tree.runs_upsert key short).mono ?_
    rintro result after ⟨left, leaf, right, -, -, -, ⟨-, root, rfl, tree', rfl, denotes, rfl⟩ | ⟨-, rfl, lost, rfl⟩⟩
    · exact Or.inl ⟨tree', rfl, denotes, rfl⟩
    · exact Or.inr ⟨rfl, lost, rfl⟩
  | remove key =>
    refine (tree.does_remove key).then ?_
    rintro _ _ ⟨tree', same, denotes, -, rfl⟩
    exact Runs.pure (Or.inl ⟨tree', by rw [same], denotes, rfl⟩)

private theorem Tree.runs_runOps (tree : Tree) (ops : List TreeOp) (short : ∀ op ∈ ops, op.Short) :
    Runs (runOps ops tree.root : PageProg σ PageId) tree.cells fun result after =>
      (∃ tree' : Tree, result = .ok tree'.root ∧ tree'.denote = ops.foldl TreeOp.apply tree.denote ∧
        after = tree'.cells) ∨ result = .error Tree.jamError := by
  induction ops generalizing tree with
  | nil => exact Runs.pure (Or.inl ⟨tree, rfl, rfl, rfl⟩)
  | cons op rest ih =>
    refine (tree.runs_op op (short op List.mem_cons_self)).bind ?_ ?_
    · rintro root after (⟨tree', same, denotes, rfl⟩ | ⟨wrong, -⟩)
      · obtain rfl := Except.ok.inj same
        refine (ih tree' fun other member => short other (List.mem_cons_of_mem _ member)).mono ?_
        rintro result after (⟨last, same', denotes', rfl⟩ | jammed)
        · exact Or.inl ⟨last, same', by rw [denotes', denotes, List.foldl_cons], rfl⟩
        · exact Or.inr jammed
      · cases wrong
    · rintro error after (⟨tree', wrong, -⟩ | ⟨jammed, -⟩)
      · cases wrong
      · exact Or.inr jammed

private theorem runs_build (cells : Multiset Cell) (ops : List TreeOp) (short : ∀ op ∈ ops, op.Short) :
    Runs (build ops : PageProg σ PageId) cells fun result after =>
      (∃ tree : Tree, result = .ok tree.root ∧ tree.denote = denoted ops ∧ after = tree.cells + cells) ∨
        result = .error Tree.jamError := by
  refine does_create.then ?_
  rintro _ _ ⟨tree, rfl, empty, rfl⟩
  refine ((tree.runs_runOps ops short).frame cells).mono ?_
  rintro result after ⟨own, ⟨tree', same, denotes, rfl⟩ | jammed, rfl⟩
  · exact Or.inl ⟨tree', same, by rw [denotes, empty]; rfl, rfl⟩
  · exact Or.inr jammed

/-- Under this root a pager answers lookups and seeks as the map does. -/
def Stores (root : PageId) (stored : OrderedMap Key Bytes) (state : σ) (pager : Pager) : Prop :=
  (∀ key, ∃ after, (lookup root key).onPager state pager = .ok (.ok (stored.find? key), state, after)) ∧
    ∀ start, ∃ after, (seek root start).onPager state pager = .ok (.ok (stored.seek start), state, after)

private theorem Tree.stores (tree : Tree) {pager : Pager} (holds : pager.Holds map)
    (heap : Heap map (tree.cells + cells)) :
    Stores tree.root tree.denote state pager := by
  refine ⟨fun key => ?_, fun start => ?_⟩
  · obtain ⟨_, _, after, _, ran, -, -, -, result, rfl, rfl, -⟩ :=
      (tree.does_lookup key).onPager holds heap ((noAlloc_lookup _ _).ne_full state map)
    exact ⟨after, ran⟩
  · obtain ⟨_, _, after, _, ran, -, -, -, result, rfl, rfl, -⟩ :=
      (tree.does_seek start).onPager holds heap ((noAlloc_seek _ _).ne_full state map)
    exact ⟨after, ran⟩

/-- The tree that calls which all returned have built. -/
theorem exists_built {pager pager' : Pager} (holds : pager.Holds map) (heap : Heap map cells) (ops : List TreeOp)
    (short : ∀ op ∈ ops, op.Short) (room : (build ops).onMap state map ≠ .error (.refused .full))
    (built : (build ops).onPager state pager = .ok (.ok root, state, pager')) :
    ∃ map', ∃ tree : Tree, (build ops).onMap state map = .ok (.ok root, state, map') ∧ pager'.Holds map' ∧
      Heap map' (tree.cells + cells) ∧ tree.root = root ∧ tree.denote = denoted ops := by
  obtain ⟨result, map', after, all, ran, onMap, held, heap', outcome⟩ :=
    (runs_build 0 ops short).onPager holds (by rwa [zero_add]) room
  obtain ⟨rfl, -, rfl⟩ : result = .ok root ∧ state = state ∧ after = pager' := by simpa using ran.symm.trans built
  rcases outcome with ⟨tree, same, denotes, rfl⟩ | wrong
  · refine ⟨map', tree, onMap, held, ?_, (Except.ok.inj same).symm, denotes⟩
    rwa [add_zero] at heap'
  · cases wrong

private theorem run_runOps_append {ops more : List TreeOp} {root' : PageId} {state' : σ} {map' : PageMap}
    (ran : (runOps ops root).onMap state map = .ok (.ok root', state', map')) :
    (runOps (ops ++ more) root).onMap state map = (runOps more root').onMap state' map' := by
  induction ops generalizing root state map with
  | nil =>
    obtain ⟨rfl, rfl, rfl⟩ : root = root' ∧ state = state' ∧ map = map' := by simpa [runOps] using ran
    rfl
  | cons op rest ih =>
    rw [List.cons_append, runOps]
    rw [runOps, onMap, Prog.run_bind] at ran
    rw [onMap, Prog.run_bind]
    split at ran
    · cases ran
    · simp at ran
    · exact ih ran

private theorem run_build_append {ops more : List TreeOp} {map' : PageMap}
    (ran : (build ops).onMap state map = .ok (.ok root, state, map')) :
    (build (ops ++ more)).onMap state map = (runOps more root).onMap state map' := by
  rw [build, onMap, Prog.run_bind] at ran ⊢
  split at ran
  · cases ran
  · simp at ran
  · exact run_runOps_append ran

/-- The tree is a finite map. After any calls that returned, on a pager whose free list is
in order and that did not run out of page numbers, a lookup and a seek answer as the map
the calls denote, a removal answers whether the key was there and leaves the map without
it, and an insertion that returns leaves the map with the binding under the returned root. -/
theorem tree_is_finite_map {state : σ} {map : PageMap} {pager pager' : Pager} {root : PageId}
    {others : Multiset Cell} (holds : pager.Holds map) (heap : Heap map others) (ops : List TreeOp)
    (short : ∀ op ∈ ops, op.Short) (room : (build ops).onMap state map ≠ .error (.refused .full))
    (built : (build ops).onPager state pager = .ok (.ok root, state, pager')) : Stores root (denoted ops) state pager' ∧
      (∀ key, ∃ after, (remove root key).onPager state pager' =
          .ok (.ok ((denoted ops).find? key).isSome, state, after) ∧
        Stores root ((denoted ops).erase key) state after) ∧
      ∀ key payload root' after, payload.length < 2 ^ 32 →
        (build (ops ++ [.upsert key payload])).onMap state map ≠ .error (.refused .full) →
        (upsert root key payload).onPager state pager' = .ok (.ok root', state, after) →
        Stores root' ((denoted ops).insert key payload) state after := by
  obtain ⟨map', tree, onMap, held, heap', rfl, denotes⟩ := exists_built holds heap ops short room built
  rw [← denotes]
  refine ⟨tree.stores held heap', fun key => ?_, fun key payload root' after fits more returned => ?_⟩
  · obtain ⟨_, _, after, _, ran, -, held', heap'', _, rfl, tree', root, denotes', rfl, rfl⟩ :=
      (tree.does_remove key).onPager held heap' ((noAlloc_remove _ _).ne_full state map')
    refine ⟨after, ran, ?_⟩
    rw [← root, ← denotes']
    exact tree'.stores held' heap''
  · have room' : (upsert tree.root key payload).onMap state map' ≠ .error (.refused .full) := by
      intro full
      refine more ?_
      rw [run_build_append onMap]
      exact Prog.run_bind_stop full
    obtain ⟨result, _, last, all, ran, -, held', heap'', left, leaf, right, -, -, -, outcome⟩ :=
      (tree.runs_upsert key fits).onPager held heap' room'
    obtain ⟨rfl, -, rfl⟩ : result = .ok root' ∧ state = state ∧ last = after := by simpa using ran.symm.trans returned
    rcases outcome with ⟨-, _, same, tree', rfl, denotes', rfl⟩ | ⟨-, wrong, -⟩
    · obtain rfl := Except.ok.inj same
      rw [← denotes']
      exact tree'.stores held' heap''
    · cases wrong

/-- The result of a program that ended, without the states. -/
def ended {ρ S α : Type} (outcome : Except (Stop ρ) (Except FerriteError α × Unit × S)) :
    Option (Except FerriteError α) :=
  match outcome with
  | .ok (result, _) => some result
  | .error _ => none

private theorem exists_of_ended {ρ S α : Type} {outcome : Except (Stop ρ) (Except FerriteError α × Unit × S)}
    {result : Except FerriteError α} (same : ended outcome = some result) :
    ∃ store, outcome = .ok (result, (), store) := by
  unfold ended at same
  split at same
  · obtain rfl := Option.some.inj same
    exact ⟨_, rfl⟩
  · cases same

/-- A payload that needs an overflow page, five that split the leaf, and a removal. -/
def splitOps : List TreeOp := .upsert 1 (List.replicate 2001 7) ::
    [2, 3, 4, 5, 6].map (fun key => .upsert key (List.replicate 1990 8)) ++ [.remove 4]

/-- The leaf has been split: the payload on overflow pages is found, and a seek from the removed key
ends at the next one. -/
theorem tree_is_finite_map_split_leaf : ∃ pager pager', Pager.openFiles .steady 8 true .empty = .ok pager ∧
      (build splitOps).onPager () pager = .ok (.ok 4, (), pager') ∧
      (∃ after, (lookup 4 1).onPager () pager' = .ok (.ok (some (List.replicate 2001 7)), (), after)) ∧
      ∃ after, (seek 4 4).onPager () pager' = .ok (.ok (some (5, List.replicate 1990 8)), (), after) := by
  obtain ⟨pager, opened, content⟩ := Pager.openFiles_empty .steady 8 true
  have holds := Pager.holds_of_opened (fun _ => rfl) opened
  have result : ended ((build splitOps).onMap () (PageMap.recovered .empty Meta.fresh)) = some (.ok 4) := by
    decide +kernel
  obtain ⟨map', onMap⟩ := exists_of_ended result
  rw [content] at holds
  obtain ⟨pager', built, -⟩ := onPager_of_onMap _ holds onMap
  have short : ∀ op ∈ splitOps, op.Short := by decide +kernel
  obtain ⟨⟨lookups, seeks⟩, -⟩ := tree_is_finite_map holds (Heap.fresh _) splitOps short (by rw [onMap]; simp) built
  have found : (denoted splitOps).find? 1 = some (List.replicate 2001 7) := by decide +kernel
  have next : (denoted splitOps).seek 4 = some (5, List.replicate 1990 8) := by decide +kernel
  exact ⟨pager, pager', opened, built, found ▸ lookups 1, next ▸ seeks 4⟩

/-- A database whose meta page holds this record. -/
def databaseWith (content : Meta) : Disk :=
  ⟨⟨fun id => if id = metaPage then some ⟨0, (Page.new .metadata).writeBody 0 content.record⟩ else none,
    1⟩, []⟩

/-- With one page number left, a new tree takes it, and the overflow page of its first
payload is given number zero, which ends every chain: the payload is gone. -/
theorem last_page_number_loses_payload :
    ((Pager.openFiles .steady 8 true (databaseWith { Meta.fresh with pageCount := 4294967295 })).toOption.map
      fun pager =>
        match (build [.upsert 1 (List.replicate 2001 7)]).onPager () pager with
        | .ok (.ok root, _, pager') => ended ((lookup root 1).onPager () pager')
        | _ => none) =
      some (some (.error (corrupt "overflow chain length does not match its descriptor"))) := by
  decide +kernel

end Ferrite.Storage.BTree
