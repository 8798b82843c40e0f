import Ferrite.Storage.PageProgram

/-!
# The commit bitmap

`ferrite-storage/src/clog.rs`: one bit for every transaction id, in pages listed in the meta
record. A page is taken from the allocator when the first id of it is marked, and may have
belonged to somebody else before. Between marks others use the same pager on pages of their
own.
-/

namespace Ferrite.Storage.CommitBitmap

open Logical PageProg

variable {σ : Type}

/-- The segment, the byte and the bit of a transaction. -/
def locate (txn : Nat) : Nat × Nat × UInt8 :=
  let bit := txn % txnsPerClogPage
  (txn / txnsPerClogPage, bit / 8, 1 <<< UInt8.ofNat (bit % 8))

def readMeta : PageProg σ Meta := Prog.ask .readMeta

def metaMut (change : Meta → Meta) : PageProg σ Unit := Prog.ask (.metaMut change)

/-- The bit of a transaction in its page. -/
def testBit (page : Page) (txn : Nat) : Bool := page.body (locate txn).2.1 &&& (locate txn).2.2 != 0

def setBit (txn : Nat) (page : Page) : Page :=
  page.writeBody (locate txn).2.1 [page.body (locate txn).2.1 ||| (locate txn).2.2]

def isCommitted (txn : Nat) : PageProg σ Bool := do
  let content ← readMeta
  match content.clogPages[(locate txn).1]? with
  | none => pure false
  | some id => do
    let page ← withPage id
    pure (testBit page txn)

/-- The loop of `mark_committed`, for a number of rounds. -/
def grow (segment : Nat) : Nat → PageProg σ Unit
  | 0 => .hang
  | rounds + 1 => do
    let content ← readMeta
    if content.clogPages.length ≤ segment then do
      let id ← allocPage .clog
      metaMut fun content => { content with clogPages := content.clogPages ++ [id] }
      grow segment rounds
    else pure ()

def markCommitted (txn : Nat) : PageProg σ Unit := do
  grow (locate txn).1 ((locate txn).1 + 2)
  let content ← readMeta
  match content.clogPages[(locate txn).1]? with
  -- the index panics
  | none => .hang
  | some id => do
    let _ ← withPageMut id (setBit txn)
    pure ()

/-! ## Bits of a page -/

variable {owned : List PageId} {pager : Pager} {map : PageMap}

private theorem test_mask (byte : UInt8) {bit : Nat} (inside : bit < 8) :
    (byte &&& 1 <<< UInt8.ofNat bit != 0) = byte.toBitVec.getLsbD bit := by
  have mask : ∀ bit < 8, ((1 : UInt8) <<< UInt8.ofNat bit).toBitVec = BitVec.twoPow 8 bit := by decide
  have notZero : ∀ bit < 8, BitVec.twoPow 8 bit ≠ 0#8 := by decide
  rw [Bool.eq_iff_iff, bne_iff_ne, ← UInt8.toBitVec_inj.ne, UInt8.toBitVec_and, mask bit inside, BitVec.and_twoPow]
  cases byte.toBitVec.getLsbD bit with
  | false => simp
  | true => simpa using notZero bit inside

private theorem testBit_setBit (txn other : Nat) (page : Page) : testBit (setBit txn page) other =
      (decide (other % txnsPerClogPage = txn % txnsPerClogPage) || testBit page other) := by
  have inside (txn : Nat) : txn % txnsPerClogPage % 8 < 8 := Nat.mod_lt _ (by decide)
  unfold testBit setBit locate Page.writeBody
  dsimp only
  rw [test_mask _ (inside other), test_mask _ (inside other)]
  have mask : ∀ bit < 8, ∀ tested < 8,
      ((1 : UInt8) <<< UInt8.ofNat bit).toBitVec.getLsbD tested = decide (tested = bit) := by decide
  generalize other % txnsPerClogPage = otherBit at *
  generalize txn % txnsPerClogPage = bit at *
  by_cases sameByte : otherBit / 8 = bit / 8
  · have written : (page.body.write (bit / 8) [page.body (bit / 8) ||| 1 <<< UInt8.ofNat (bit % 8)]) (otherBit / 8) =
        page.body (bit / 8) ||| 1 <<< UInt8.ofNat (bit % 8) := by
      simp [Body.write, sameByte]
    have sameBit : decide (otherBit % 8 = bit % 8) = decide (otherBit = bit) := by
      rw [decide_eq_decide]
      omega
    rw [written, UInt8.toBitVec_or, BitVec.getLsbD_or, mask _ (Nat.mod_lt _ (by decide)) _ (Nat.mod_lt _ (by decide)),
      sameBit, sameByte, Bool.or_comm]
  · have kept : (page.body.write (bit / 8) [page.body (bit / 8) ||| 1 <<< UInt8.ofNat (bit % 8)]) (otherBit / 8) =
        page.body (otherBit / 8) := by
      unfold Body.write
      split
      · rw [List.getD_eq_getElem?_getD, List.getElem?_eq_none (by simp; omega)]
        rfl
      · rfl
    have otherBit_ne : otherBit ≠ bit := by
      rintro rfl
      exact sameByte rfl
    rw [kept, decide_eq_false otherBit_ne, Bool.false_or]

private theorem testBit_new (kind : PageKind) (txn : Nat) : testBit (Page.new kind) txn = false := by simp
    [testBit, Page.new]

/-! ## The pages of the log -/

/-- The bit of a transaction in the segments. -/
def bitOf (segments : List Cell) (txn : Nat) : Bool :=
  (segments[txn / txnsPerClogPage]?).any fun cell => testBit cell.2 txn

private theorem bitOf_append_new {segments new : List Cell} (isNew : ∀ cell ∈ new, cell.2 = Page.new .clog)
    (txn : Nat) :
    bitOf (segments ++ new) txn = bitOf segments txn := by
  unfold bitOf
  rw [List.getElem?_append]
  split
  · rfl
  · rename_i outside
    rw [List.getElem?_eq_none (Nat.le_of_not_lt outside)]
    cases found : new[txn / txnsPerClogPage - segments.length]? with
    | none => rfl
    | some cell =>
      rw [Option.any_some, isNew cell (List.mem_of_getElem? found), testBit_new]
      rfl

private theorem bitOf_setBit {before after : List Cell} {id : PageId} {page : Page} {txn : Nat}
    (place : before.length = txn / txnsPerClogPage) (other : Nat) :
    bitOf (before ++ (id, setBit txn page) :: after) other =
      (decide (other = txn) || bitOf (before ++ (id, page) :: after) other) := by
  have together : decide (other = txn) =
      (decide (other / txnsPerClogPage = before.length) && decide (other % txnsPerClogPage = txn % txnsPerClogPage)) := by
    rw [← Bool.decide_and, decide_eq_decide, place]
    constructor
    · rintro rfl
      exact ⟨rfl, rfl⟩
    · rintro ⟨segment, bit⟩
      rw [← Nat.div_add_mod other txnsPerClogPage, segment, bit, Nat.div_add_mod]
  rw [together]
  unfold bitOf
  rw [List.getElem?_append, List.getElem?_append]
  by_cases inBefore : other / txnsPerClogPage < before.length
  · simp [inBefore, Nat.ne_of_lt inBefore]
  · simp only [inBefore, if_false]
    cases distance : other / txnsPerClogPage - before.length with
    | zero =>
      have here : other / txnsPerClogPage = before.length := by omega
      simp [here, testBit_setBit]
    | succ later =>
      have notHere : other / txnsPerClogPage ≠ before.length := by omega
      simp [notHere]

/-- The meta record lists these segments, which lie beside the pages of others. -/
structure Lists (map : PageMap) (segments : List Cell) (others : Multiset Cell) : Prop where
  ids : map.content.clogPages = segments.map Prod.fst
  fits : segments.length ≤ clogDirectoryCapacity
  heap : Heap map (↑segments + others)

section

variable {map : PageMap} {segments : List Cell} {others : Multiset Cell}

private theorem run_readMeta (state : σ) (map : PageMap) :
    (readMeta : PageProg σ Meta).onMap state map = .ok (.ok map.content, state, map) := rfl

private theorem run_metaMut {change : Meta → Meta} (fits : Pager.Fits (change map.content)) (state : σ) :
    (metaMut change : PageProg σ Unit).onMap state map = .ok (.ok (), state, { map with content := change map.content }) := by
  refine Prog.run_ask ?_
  have accepted : map.Admits (.metaMut change) := fits
  rw [PageMap.answer, if_pos accepted]
  rfl

/-- The allocator does not see the directory. -/
theorem heap_clogPages {cells : Multiset Cell} (heap : Heap map cells) (clogPages : List PageId) :
    Heap { map with content := { map.content with clogPages } } cells := heap

private theorem Lists.push (lists : Lists map segments others) (room : segments.length < clogDirectoryCapacity)
    (state : σ)
    (next : PageProg σ Unit) :
    let push := do
      let id ← allocPage .clog
      metaMut fun content => { content with clogPages := content.clogPages ++ [id] }
      next
    push.onMap state map = .error (.refused .full) ∨
      ∃ id map', push.onMap state map = next.onMap state map' ∧ Lists map' (segments ++ [(id, Page.new .clog)]) others := by
  intro push
  rcases does_allocPage (σ := σ) .clog state map 0 (by simpa using lists.heap) with full |
    ⟨_, map', _, ran, heap, roots, id, rfl, rfl⟩
  · exact Or.inl (Prog.run_bind_stop full)
  · have pages : map'.content.clogPages ++ [id] = (segments ++ [(id, Page.new .clog)]).map Prod.fst := by
      rw [roots.2.2, lists.ids, List.map_append]
      rfl
    have fits : Pager.Fits { map'.content with clogPages := map'.content.clogPages ++ [id] } := by
      change (map'.content.clogPages ++ [id]).length ≤ clogDirectoryCapacity
      rw [pages, List.length_map, List.length_append]
      exact room
    refine Or.inr ⟨id, _, (Prog.run_bind_ok _ ran).trans (Prog.run_bind_ok _ (run_metaMut fits state)), pages, ?_, ?_⟩
    · rw [List.length_append]
      exact room
    · refine heap_clogPages ?_ _
      rw [add_zero, ← add_assoc] at heap
      rwa [← Multiset.coe_add, Multiset.coe_singleton, add_comm (↑segments : Multiset Cell)]

/-- The loop allocates the segments that are missing. -/
theorem Lists.grow {segment : Nat} (below : segment < clogDirectoryCapacity) (state : σ) {rounds : Nat}
    (lists : Lists map segments others) (enough : segment + 1 - segments.length < rounds) :
    (grow segment rounds : PageProg σ Unit).onMap state map = .error (.refused .full) ∨
      ∃ new map', (grow segment rounds : PageProg σ Unit).onMap state map = .ok (.ok (), state, map') ∧
        Lists map' (segments ++ new) others ∧ segment < (segments ++ new).length ∧
        ∀ cell ∈ new, cell.2 = Page.new .clog := by
  induction rounds generalizing map segments with
  | zero => omega
  | succ rounds ih =>
    have length : map.content.clogPages.length = segments.length := by rw [lists.ids, List.length_map]
    rw [CommitBitmap.grow, onMap, Prog.run_bind_ok _ (run_readMeta state map), length]
    split
    · rename_i short
      rcases lists.push (by omega) state (CommitBitmap.grow segment rounds) with full | ⟨id, map', ran, pushed⟩
      · exact Or.inl full
      · have missing : segment + 1 - (segments ++ [(id, Page.new .clog)]).length < rounds := by
          rw [List.length_append, List.length_singleton]
          omega
        rcases ih pushed missing with full | ⟨new, map'', rest, grown, long, isNew⟩
        · exact Or.inl (ran.trans full)
        · refine Or.inr ⟨(id, Page.new .clog) :: new, map'', ran.trans rest, ?_⟩
          rw [List.append_assoc] at grown long
          refine ⟨grown, long, ?_⟩
          intro cell member
          rcases List.mem_cons.mp member with rfl | later
          · rfl
          · exact isNew cell later
    · rename_i long
      refine Or.inr ⟨[], map, rfl, by simpa using lists, by simpa using long, by simp⟩

private theorem Lists.markCommitted (lists : Lists map segments others) {txn : Nat} (below : txn < maxTxnId)
    (state : σ) :
    (markCommitted txn : PageProg σ Unit).onMap state map = .error (.refused .full) ∨
      ∃ segments' map', (markCommitted txn : PageProg σ Unit).onMap state map = .ok (.ok (), state, map') ∧
        Lists map' segments' others ∧ ∀ other, bitOf segments' other = (decide (other = txn) || bitOf segments other) := by
  have inDirectory : txn / txnsPerClogPage < clogDirectoryCapacity := segment_le_capacity below
  have missing : txn / txnsPerClogPage + 1 - segments.length < txn / txnsPerClogPage + 2 := by
    generalize txn / txnsPerClogPage = segment
    omega
  rcases lists.grow inDirectory state missing with full | ⟨new, map', grown, ⟨ids, fits, heap⟩, long, isNew⟩
  · exact Or.inl (Prog.run_bind_stop full)
  · obtain ⟨before, ⟨id, page⟩, after, split, place⟩ :
        ∃ before cell after, segments ++ new = before ++ cell :: after ∧ before.length = txn / txnsPerClogPage := by
      refine ⟨(segments ++ new).take (txn / txnsPerClogPage), (segments ++ new)[txn / txnsPerClogPage],
        (segments ++ new).drop (txn / txnsPerClogPage + 1), ?_, ?_⟩
      · rw [List.getElem_cons_drop, List.take_append_drop]
      · rw [List.length_take, Nat.min_eq_left (Nat.le_of_lt long)]
    have listed : map'.content.clogPages[txn / txnsPerClogPage]? = some id := by
      rw [ids, split, ← place, List.map_append]
      simp
    have apart (page : Page) : (↑(before ++ (id, page) :: after) : Multiset Cell) = {(id, page)} + ↑(before ++ after) := by
      rw [Multiset.singleton_add, Multiset.cons_coe, Multiset.coe_eq_coe]
      exact List.perm_middle
    rw [split] at fits heap ids
    rw [apart] at heap
    rcases does_withPageMut id page (setBit txn) state map' others heap with full | ⟨_, map'', _, ran, heap', roots, _, rfl, -, rfl⟩
    · exact absurd full ((noAlloc_withPageMut id (setBit txn)).ne_full state map')
    · rw [← apart] at heap'
      refine Or.inr ⟨before ++ (id, setBit txn page) :: after, map'', ?_, ⟨?_, ?_, heap'⟩, ?_⟩
      · refine (Prog.run_bind_ok _ grown).trans ((Prog.run_bind_ok _ (run_readMeta state map')).trans ?_)
        simp only [locate, listed]
        exact Prog.run_bind_ok _ ran
      · rw [roots.2.2, ids]
        simp
      · simpa using fits
      · intro other
        rw [bitOf_setBit place, ← split, bitOf_append_new isNew]

private theorem Lists.isCommitted (lists : Lists map segments others) (txn : Nat) (state : σ) :
    ∃ map', (isCommitted txn : PageProg σ Bool).onMap state map = .ok (.ok (bitOf segments txn), state, map') ∧
      Lists map' segments others := by
  have listed : map.content.clogPages[txn / txnsPerClogPage]? = (segments[txn / txnsPerClogPage]?).map Prod.fst := by
    rw [lists.ids, List.getElem?_map]
  rw [CommitBitmap.isCommitted, onMap, Prog.run_bind_ok _ (run_readMeta state map)]
  simp only [locate, listed]
  cases found : segments[txn / txnsPerClogPage]? with
  | none => exact ⟨map, by simp [bitOf, found], lists⟩
  | some cell =>
    have member : (cell.1, cell.2) ∈ (↑segments : Multiset Cell) := List.mem_of_getElem? found
    rcases does_withPage cell.2 member state map others lists.heap with full |
      ⟨_, map', _, ran, heap, roots, page, rfl, rfl, rfl⟩
    · exact absurd full ((noAlloc_withPage cell.1).ne_full state map)
    · refine ⟨map', ?_, roots.2.2.trans lists.ids, lists.fits, heap⟩
      simp only [Option.map_some, bitOf, found, Option.any_some]
      exact Prog.run_bind_ok _ ran

end

/-! ## Runs -/

/-- What others do: they take pages from the allocator, and use and free pages they own; or
they write the journal. -/
inductive OthersCall (owned : List PageId) : {α : Type} → PagerCall α → (α → List PageId) → Prop
  | alloc (kind : PageKind) : OthersCall owned (.allocPage kind) fun id => id :: owned
  | free {id : PageId} (owns : id ∈ owned) : OthersCall owned (.freePage id) fun _ => owned.erase id
  | read {id : PageId} (owns : id ∈ owned) : OthersCall owned (.withPage id) fun _ => owned
  | change {id : PageId} (owns : id ∈ owned) (change : Page → Page) : OthersCall owned (.withPageMut id change) fun _ => owned
  | write {id : PageId} (owns : id ∈ owned) (page : Page) : OthersCall owned (.writePage id page) fun _ => owned
  | commit (txn : TxnId) : OthersCall owned (.commitToJournal txn) fun _ => owned
  | abort (txn : TxnId) : OthersCall owned (.abortToJournal txn) fun _ => owned
  | checkpoint : OthersCall owned .checkpoint fun _ => owned

/-- A program returns on the pager, and on the page map, which refuses once the page numbers
are used up. -/
def Returns {α : Type} (prog : PageProg Unit α) (pager : Pager) (map : PageMap) (result : α) (pager' : Pager) (map' : PageMap) :
    Prop :=
  prog.onPager () pager = .ok (.ok result, (), pager') ∧ prog.onMap () map = .ok (.ok result, (), map')

/-- The pagers a new database comes to, with the pages others own and the transactions
marked. -/
inductive Reached : Pager → PageMap → List PageId → List Nat → Prop
  | opened {around : Surroundings} {capacity : Nat} {syncOnCommit : Bool} {pager : Pager}
      (calm : ∀ turn, around.fault turn = none)
      (opens : Pager.openFiles around capacity syncOnCommit .empty = .ok pager) :
      Reached pager (.recovered .empty pager.content) [] []
  | mark {pager pager' : Pager} {map map' : PageMap} {owned : List PageId} {marked : List Nat} {txn : Nat}
      (reached : Reached pager map owned marked) (below : txn < maxTxnId)
      (returns : Returns (markCommitted txn) pager map () pager' map') : Reached pager' map' owned (txn :: marked)
  | ask {pager pager' : Pager} {map map' : PageMap} {owned : List PageId} {marked : List Nat} {txn : Nat} {answer : Bool}
      (reached : Reached pager map owned marked) (returns : Returns (isCommitted txn) pager map answer pager' map') :
      Reached pager' map' owned marked
  | others {pager pager' : Pager} {map map' : PageMap} {owned : List PageId} {marked : List Nat} {α : Type}
      {call : PagerCall α} {next : α → List PageId} {result : α} (reached : Reached pager map owned marked)
      (others : OthersCall owned call next) (returns : Returns (Prog.ask call) pager map result pager' map') :
      Reached pager' map' (next result) marked

/-- The pager holds the map, whose bits are the marked transactions. -/
structure Tracks (pager : Pager) (map : PageMap) (owned : List PageId) (marked : List Nat) : Prop where
  holds : pager.Holds map
  bits : ∃ segments others, Lists map segments others ∧ others.map Prod.fst = ↑owned ∧
    ∀ txn, bitOf segments txn = decide (txn ∈ marked)

private theorem erase_fst {cells : Multiset Cell} {id : PageId} (own : cells.map Prod.fst = ↑owned)
    (owns : id ∈ owned) :
    ∃ page rest, cells = {(id, page)} + rest ∧ rest.map Prod.fst = ↑(owned.erase id) := by
  have member : id ∈ cells.map Prod.fst := by
    rw [own]
    exact owns
  obtain ⟨⟨_, page⟩, inCells, rfl⟩ := Multiset.mem_map.mp member
  obtain ⟨rest, rfl⟩ := Multiset.exists_cons_of_mem inCells
  refine ⟨page, rest, (Multiset.singleton_add _ _).symm, ?_⟩
  rw [← Multiset.coe_erase, ← own, Multiset.map_cons, Multiset.erase_cons_head]

/-- A call of others keeps to the pages they own. -/
theorem OthersCall.does {α : Type} {call : PagerCall α} {next : α → List PageId} {cells : Multiset Cell}
    (others : OthersCall owned call next) (own : cells.map Prod.fst = ↑owned) :
    Does (Prog.ask call : PageProg σ α) cells fun result after => after.map Prod.fst = ↑(next result) := by
  cases others with
  | alloc kind =>
    refine (does_allocPage kind).mono ?_
    rintro id _ rfl
    rw [Multiset.map_add, own]
    rfl
  | free owns =>
    obtain ⟨page, rest, rfl, remain⟩ := erase_fst own owns
    refine (does_freePage _ page).mono ?_
    rintro _ _ rfl
    exact remain
  | read owns =>
    obtain ⟨page, rest, rfl, -⟩ := erase_fst own owns
    refine (does_withPage page (by simp)).mono ?_
    rintro _ _ ⟨-, rfl⟩
    exact own
  | change owns change =>
    obtain ⟨page, rest, rfl, -⟩ := erase_fst own owns
    refine (does_withPageMut _ page change).mono ?_
    rintro _ _ ⟨-, rfl⟩
    simpa using own
  | write owns page =>
    obtain ⟨old, rest, rfl, -⟩ := erase_fst own owns
    refine (does_writePage _ old page).mono ?_
    rintro _ _ rfl
    simpa using own
  | commit txn => exact does_ask fun map frame heap => Or.inr ⟨(), map, cells, rfl, heap, .refl map, own⟩
  | abort txn => exact does_ask fun map frame heap => Or.inr ⟨(), map, cells, rfl, heap, .refl map, own⟩
  | checkpoint => exact does_ask fun map frame heap => Or.inr ⟨(), map, cells, rfl, heap, .refl map, own⟩

/-- What the map returns, a pager that holds it returns. -/
theorem Returns.holds {α : Type} {prog : PageProg Unit α} {pager' : Pager} {map' : PageMap} {result : α}
    (returns : Returns prog pager map result pager' map') (holds : pager.Holds map) : pager'.Holds map' := by
  obtain ⟨other, ran, held⟩ := onPager_of_onMap prog holds returns.2
  obtain ⟨-, -, rfl⟩ : result = result ∧ () = () ∧ other = pager' := by simpa using ran.symm.trans returns.1
  exact held

/-- The bitmap is tracked along every run. -/
theorem Reached.tracks {marked : List Nat} (reached : Reached pager map owned marked) :
    Tracks pager map owned marked := by
  induction reached with
  | @opened around capacity syncOnCommit pager calm opens =>
    refine ⟨Pager.holds_of_opened calm opens, [], 0, ?_, rfl, ?_⟩
    · obtain ⟨_, other, content⟩ := Pager.openFiles_empty around capacity syncOnCommit
      obtain rfl := Except.ok.inj (other.symm.trans opens)
      rw [content]
      exact ⟨rfl, Nat.zero_le _, Heap.fresh _⟩
    · intro txn
      simp [bitOf]
  | @mark _ _ _ _ _ marked txn _ below returns ih =>
    obtain ⟨holds, segments, others, lists, own, bits⟩ := ih
    refine ⟨returns.holds holds, ?_⟩
    rcases lists.markCommitted below () with full | ⟨segments', map'', ran, lists', bits'⟩
    · rw [returns.2] at full
      cases full
    · obtain ⟨-, -, rfl⟩ : () = () ∧ () = () ∧ map'' = _ := by simpa using ran.symm.trans returns.2
      refine ⟨segments', others, lists', own, ?_⟩
      intro other
      rw [bits', bits]
      simp
  | @ask _ _ _ _ _ _ txn _ _ returns ih =>
    obtain ⟨holds, segments, others, lists, own, bits⟩ := ih
    obtain ⟨map'', ran, lists'⟩ := lists.isCommitted txn ()
    obtain ⟨-, -, rfl⟩ : _ = _ ∧ () = () ∧ map'' = _ := by simpa using ran.symm.trans returns.2
    exact ⟨returns.holds holds, segments, others, lists', own, bits⟩
  | others _ others returns ih =>
    obtain ⟨holds, segments, cells, ⟨ids, fits, heap⟩, own, bits⟩ := ih
    refine ⟨returns.holds holds, ?_⟩
    rw [add_comm] at heap
    rcases others.does own () _ _ heap with full | ⟨_, map'', cells', ran, heap', roots, value, rfl, own'⟩
    · rw [returns.2] at full
      cases full
    · obtain ⟨rfl, -, rfl⟩ : value = _ ∧ () = () ∧ map'' = _ := by simpa using ran.symm.trans returns.2
      rw [add_comm] at heap'
      exact ⟨segments, cells', ⟨roots.2.2.trans ids, fits, heap'⟩, own', bits⟩

private theorem Tracks.isCommitted {marked : List Nat} (tracks : Tracks pager map owned marked) (txn : Nat) :
    ∃ pager', (isCommitted txn).onPager () pager = .ok (.ok (decide (txn ∈ marked)), (), pager') := by
  obtain ⟨holds, segments, others, lists, own, bits⟩ := tracks
  obtain ⟨map', ran, -⟩ := lists.isCommitted txn ()
  obtain ⟨pager', ran', -⟩ := onPager_of_onMap _ holds ran
  rw [bits] at ran'
  exact ⟨pager', ran'⟩

/-- The commit bitmap is the set of marked transactions: whatever marks and calls of others
led to a pager, exactly the marked transactions are committed, and marking one more adds it
and nothing else. -/
theorem commit_bitmap_is_set {pager : Pager} {map : PageMap} {owned : List PageId} {marked : List Nat}
    (reached : Reached pager map owned marked) :
    (∀ txn, ∃ after, (isCommitted txn).onPager () pager = .ok (.ok (decide (txn ∈ marked)), (), after)) ∧
      ∀ txn < maxTxnId, (markCommitted txn).onMap () map ≠ .error (.refused .full) →
        ∃ pager' map', Returns (markCommitted txn) pager map () pager' map' ∧
          (∃ after, (isCommitted txn).onPager () pager' = .ok (.ok true, (), after)) ∧
          ∀ other ≠ txn, ∃ answer before after, (isCommitted other).onPager () pager = .ok (.ok answer, (), before) ∧
            (isCommitted other).onPager () pager' = .ok (.ok answer, (), after) := by
  refine ⟨reached.tracks.isCommitted, ?_⟩
  intro txn below room
  obtain ⟨holds, segments, others, lists, -, -⟩ := reached.tracks
  rcases lists.markCommitted below () with full | ⟨_, map', ran, -, -⟩
  · exact absurd full room
  obtain ⟨pager', ran', -⟩ := onPager_of_onMap _ holds ran
  have marks := (Reached.mark reached below ⟨ran', ran⟩).tracks
  refine ⟨pager', map', ⟨ran', ran⟩, ?_, ?_⟩
  · simpa using marks.isCommitted txn
  · intro other differs
    obtain ⟨before, ranBefore⟩ := reached.tracks.isCommitted other
    obtain ⟨after, ranAfter⟩ := marks.isCommitted other
    have same : decide (other ∈ txn :: marked) = decide (other ∈ marked) := by simp [differs]
    rw [same] at ranAfter
    exact ⟨_, before, after, ranBefore, ranAfter⟩

private theorem ne_error_of_isOk {ε α : Type} {outcome : Except ε α} (isOk : outcome.isOk = true) (error : ε) :
    outcome ≠ .error error := by
  rintro rfl
  cases isOk

/-- What others ask the page map for leads on, if the map admits it. -/
theorem Reached.call {marked : List Nat} {α : Type} {call : PagerCall α} {next : α → List PageId} {result : α}
    {map' : PageMap} (reached : Reached pager map owned marked) (others : OthersCall owned call next)
    (admits : map.Admits call) (answered : map.call call = some (result, map')) :
    ∃ pager', Reached pager' map' (next result) marked := by
  have ran : onMap (Prog.ask call) () map = .ok (.ok result, (), map') := by
    refine Prog.run_ask ?_
    rw [PageMap.answer, if_pos admits, answered]
  obtain ⟨pager', ran', -⟩ := onPager_of_onMap _ reached.tracks.holds ran
  exact ⟨pager', .others reached others ⟨ran', ran⟩⟩

/-- Others have filled page 1 with ones and freed it: it becomes the first page of the log, and of
its transactions only the one that is marked is committed. -/
theorem commit_bitmap_on_recycled_page : ∃ pager map pager' map', Reached pager map [] [] ∧
      map.content.freeListHead = 1 ∧ Returns (markCommitted 5) pager map () pager' map' ∧
      (∃ after, (isCommitted 5).onPager () pager' = .ok (.ok true, (), after)) ∧
      ∃ after, (isCommitted 6).onPager () pager' = .ok (.ok false, (), after) := by
  obtain ⟨first, opened, content⟩ := Pager.openFiles_empty .steady 8 true
  have new : Reached first (.recovered .empty .fresh) [] [] := content ▸ .opened (fun _ => rfl) opened
  obtain ⟨second, allocated⟩ := new.call (.alloc .leaf) (by decide) rfl
  obtain ⟨third, written⟩ := allocated.call
    (.change (List.mem_singleton.mpr rfl) fun page => page.writeBody 0 (List.replicate 8 255)) (by decide) rfl
  obtain ⟨fourth, freed⟩ := written.call (.free (List.mem_singleton.mpr rfl)) (by decide) rfl
  obtain ⟨-, marks⟩ := commit_bitmap_is_set freed
  obtain ⟨pager', map', returns, committed, -⟩ := marks 5 (by decide) (ne_error_of_isOk (by decide +kernel) _)
  have unmarked := (commit_bitmap_is_set (.mark freed (by decide) returns)).1 6
  exact ⟨fourth, _, pager', map', freed, rfl, returns, committed, unmarked⟩

/-- A database with one page number left whose commit log is page 1. -/
def wornOut : Disk :=
  let content := { Meta.fresh with pageCount := 4294967295, clogPages := [1] }
  ⟨⟨fun id => if id = metaPage then some ⟨0, (Page.new .metadata).writeBody 0 content.record⟩
      else if id = 1 then some ⟨0, Page.new .clog⟩ else none, 2⟩, []⟩

/-- The page counter wraps: others are handed the last page, page 0, and then the page of the
commit log, and a transaction that was committed no longer is. -/
theorem wrapped_page_counter_clears_the_log :
    ((Pager.openFiles .steady 8 true wornOut).toOption.bind fun pager =>
      let prog : PageProg Unit (Bool × PageId × Bool) := do
        markCommitted 5
        let before ← isCommitted 5
        let _ ← allocPage .leaf
        let _ ← allocPage .leaf
        let id ← allocPage .leaf
        let after ← isCommitted 5
        pure (before, id, after)
      (prog.onPager () pager).toOption.bind fun ended => ended.1.toOption) = some (true, 1, false) := by
  decide +kernel

end Ferrite.Storage.CommitBitmap
