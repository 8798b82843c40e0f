import Ferrite.Logical.Program
import Ferrite.Storage.PageMap
import Mathlib.Algebra.Order.Group.Multiset
import Mathlib.Data.Fintype.Card
import Mathlib.Tactic.Abel

/-!
# Programs over pages

The code above the pager as programs of pager calls. A program is run on a page map to
reason about it and on a pager to execute it; the pager does what the map does. A program
is specified by the pages it is given (`cells`) and those it leaves: whatever else there is
stays as it was, new pages come from the allocator, and no page is in two places. The
allocator refuses only when all page numbers are in use.
-/

namespace Ferrite.Storage

open Logical PageMap Page

/-- Code above the pager, with a state of its own. -/
abbrev PageProg (σ α : Type) := Prog PagerCall σ FerriteError α

/-- Why a page map gives no answer: the page numbers are used up, or there is no such page. -/
inductive Refusal where
  | full
  | missing
deriving DecidableEq

/-- A call that takes a page number from the allocator. -/
def PagerCall.allocates {α : Type} : PagerCall α → Bool
  | .allocPage _ => true
  | _ => false

/-- The page map as a store for programs. -/
def PageMap.answer {α : Type} (op : PagerCall α) (map : PageMap) :
    Except (Stop Refusal) (Except FerriteError α × PageMap) :=
  if map.Admits op then
    match map.call op with
    | some (result, after) => .ok (.ok result, after)
    | none => .error (.refused .missing)
  else .error (.refused (if op.allocates then .full else .missing))

/-- The pager as a store for programs; it always answers. -/
def Pager.answer {α : Type} (op : PagerCall α) (pager : Pager) :
    Except (Stop Empty) (Except FerriteError α × Pager) := .ok (pager.call op)

namespace PageProg

variable {σ α β : Type}

/-- Run a program on a page map. -/
abbrev onMap (prog : PageProg σ α) (state : σ) (map : PageMap) :
    Except (Stop Refusal) (Except FerriteError α × σ × PageMap) :=
  Prog.run (fun op map => map.answer op) prog state map

/-- Run a program on a pager. -/
abbrev onPager (prog : PageProg σ α) (state : σ) (pager : Pager) :
    Except (Stop Empty) (Except FerriteError α × σ × Pager) :=
  Prog.run (fun op pager => pager.answer op) prog state pager

/-- What a program does on the page map, it does on a pager that holds the map. -/
theorem onPager_of_onMap (prog : PageProg σ α) {state state' : σ} {map map' : PageMap} {pager : Pager}
    {result : Except FerriteError α} (holds : pager.Holds map)
    (ran : prog.onMap state map = .ok (result, state', map')) :
    ∃ pager', prog.onPager state pager = .ok (result, state', pager') ∧ pager'.Holds map' := by
  refine Prog.run_simulates (fun (map : PageMap) (pager : Pager) => pager.Holds map) ?_ prog holds ran
  intro γ op map pager result map' holds answered
  unfold answer at answered
  split at answered
  · rename_i admits
    have answers := holds.call op admits
    cases called : map.call op with
    | none => simp [called] at answered
    | some pair =>
      obtain ⟨value, after⟩ := pair
      rw [called] at answered answers
      obtain ⟨pager', done, holdsNext⟩ := answers
      obtain ⟨rfl, rfl⟩ := Prod.mk.inj (Except.ok.inj answered)
      exact ⟨pager', congrArg Except.ok done, holdsNext⟩
  · simp at answered

/-- The program takes no page from the allocator. -/
abbrev NoAlloc (prog : PageProg σ α) : Prop := Prog.Avoids PagerCall.allocates prog

/-- What allocates nothing is not refused a page. -/
theorem NoAlloc.ne_full {prog : PageProg σ α} (noAlloc : prog.NoAlloc) (state : σ) (map : PageMap) :
    prog.onMap state map ≠ .error (.refused .full) := by
  refine Prog.run_ne_of_avoids noAlloc (fun op map other => ?_) state map
  unfold answer
  split
  · split <;> simp
  · simp [other]

end PageProg

/-! ## The allocator -/

/-- A page with its number. -/
abbrev Cell := PageId × Page

/-- Pages linked by their `extra` field, from a head to the end mark. -/
def Chained : PageId → List Cell → Prop
  | head, [] => head = noPage
  | head, cell :: rest => head = cell.1 ∧ Chained cell.2.extra rest

/-- Page numbers handed out at some time, the meta page's included. The counter is a word
and returns to zero after the last number. -/
def Meta.pagesInUse (content : Meta) : Nat :=
  if content.pageCount = 0 then 2 ^ 32 else content.pageCount.val

/-- The map holds these pages, each under a number of its own that is neither the meta
page's nor in the free list. -/
def Heap (map : PageMap) (cells : Multiset Cell) : Prop := ∃ free : List Cell, Chained map.content.freeListHead free ∧
    (∀ cell ∈ cells + ↑free, map.pages cell.1 = some cell.2 ∧ cell.1 ≠ metaPage ∧
      cell.1.val < map.content.pagesInUse) ∧
    ((cells + ↑free).map Prod.fst).Nodup

/-- The fields of the meta record that are not the allocator's. -/
def SameRoots (before after : PageMap) : Prop := after.content.nextTxnId = before.content.nextTxnId ∧
    after.content.catalogRoot = before.content.catalogRoot ∧
    after.content.clogPages = before.content.clogPages

theorem SameRoots.refl (map : PageMap) : SameRoots map map := ⟨rfl, rfl, rfl⟩

private theorem SameRoots.trans {first second third : PageMap} (one : SameRoots first second)
    (two : SameRoots second third) : SameRoots first third :=
  ⟨two.1.trans one.1, two.2.1.trans one.2.1, two.2.2.trans one.2.2⟩

namespace Heap

variable {map : PageMap} {id : PageId} {page : Page} {cells : Multiset Cell}

/-- A new database has nothing but its meta page. -/
theorem fresh (pages : PageId → Option Page) : Heap ⟨pages, .fresh⟩ 0 := ⟨[], rfl, by simp, by simp⟩

theorem held (heap : Heap map ({(id, page)} + cells)) : map.pages id = some page ∧ id ≠ metaPage := by
  obtain ⟨free, -, held, -⟩ := heap
  obtain ⟨stored, real, -⟩ := held (id, page) (by simp)
  exact ⟨stored, real⟩

private theorem set (heap : Heap map ({(id, page)} + cells)) (changed : Page) :
    Heap (map.set id changed) ({(id, changed)} + cells) := by
  obtain ⟨free, chained, held, nodup⟩ := heap
  have others : ∀ cell ∈ cells + ↑free, cell.1 ≠ id := by
    intro cell member same
    rw [add_assoc, Multiset.map_add, Multiset.map_singleton, Multiset.singleton_add, Multiset.nodup_cons] at nodup
    exact nodup.1 (Multiset.mem_map.mpr ⟨cell, member, same⟩)
  refine ⟨free, chained, fun cell member => ?_, ?_⟩
  · rw [add_assoc, Multiset.singleton_add, Multiset.mem_cons] at member
    rcases member with rfl | member
    · obtain ⟨-, real, used⟩ := held (id, page) (by simp)
      exact ⟨by simp, real, used⟩
    · obtain ⟨stored, real, used⟩ := held cell (by
        rw [add_assoc, Multiset.singleton_add]
        exact Multiset.mem_cons_of_mem member)
      exact ⟨by simp [others cell member, stored], real, used⟩
  · simpa [add_assoc] using nodup

/-- A page from the head of the free list. -/
theorem take {content : Meta} {rest : List Cell} (chained : Chained map.content.freeListHead ((id, page) :: rest))
    (held : ∀ cell ∈ cells + ↑((id, page) :: rest), map.pages cell.1 = some cell.2 ∧
      cell.1 ≠ metaPage ∧ cell.1.val < map.content.pagesInUse)
    (nodup : ((cells + ↑((id, page) :: rest)).map Prod.fst).Nodup) (new : Page)
    (content' : content = { map.content with freeListHead := page.extra }) :
    Heap { map.set id new with content := content } ({(id, new)} + cells) := by
  have same : cells + ↑((id, page) :: rest) = {(id, page)} + (cells + ↑rest) := by
    rw [← Multiset.cons_coe, ← Multiset.singleton_add]
    abel
  rw [same] at held nodup
  have others : ∀ cell ∈ cells + ↑rest, cell.1 ≠ id := by
    intro cell member equal
    rw [Multiset.map_add, Multiset.map_singleton, Multiset.singleton_add, Multiset.nodup_cons] at nodup
    exact nodup.1 (Multiset.mem_map.mpr ⟨cell, member, equal⟩)
  subst content'
  refine ⟨rest, chained.2, fun cell member => ?_, ?_⟩
  · rw [add_assoc, Multiset.singleton_add, Multiset.mem_cons] at member
    rcases member with rfl | member
    · obtain ⟨-, real, used⟩ := held (id, page) (by simp)
      exact ⟨by simp, real, used⟩
    · obtain ⟨stored, real, used⟩ := held cell (by
        rw [Multiset.singleton_add]
        exact Multiset.mem_cons_of_mem member)
      exact ⟨by simp [others cell member, stored], real, used⟩
  · rw [add_assoc]
    simpa using nodup

private theorem extend (chained : Chained map.content.freeListHead [])
    (held : ∀ cell ∈ cells, map.pages cell.1 = some cell.2 ∧
      cell.1 ≠ metaPage ∧ cell.1.val < map.content.pagesInUse)
    (nodup : (cells.map Prod.fst).Nodup) (room : map.content.pageCount ≠ 0) (new : Page) :
    Heap { map.set map.content.pageCount new with
        content := { map.content with pageCount := map.content.pageCount + 1 } }
      ({(map.content.pageCount, new)} + cells) := by
  have before : map.content.pagesInUse = map.content.pageCount.val := if_neg room
  have after : Meta.pagesInUse { map.content with pageCount := map.content.pageCount + 1 } =
      map.content.pageCount.val + 1 := by
    have step := Fin.val_add_eq_ite map.content.pageCount 1
    have one : ((1 : PageId)).val = 1 := rfl
    have bound := map.content.pageCount.isLt
    unfold Meta.pagesInUse
    dsimp only
    split
    · rename_i wrapped
      rw [wrapped, one] at step
      have zero : ((0 : PageId)).val = 0 := rfl
      rw [zero] at step
      split at step
      · omega
      · omega
    · rename_i notZero
      rw [step, one]
      split
      · rename_i wraps
        refine absurd (Fin.ext ?_) notZero
        rw [step, one, if_pos wraps]
        have zero : ((0 : PageId)).val = 0 := rfl
        rw [zero]
        omega
      · rfl
  have others : ∀ cell ∈ cells, cell.1 ≠ map.content.pageCount := by
    intro cell member same
    have used := (held cell member).2.2
    rw [before, same] at used
    exact lt_irrefl _ used
  refine ⟨[], chained, fun cell member => ?_, ?_⟩
  · rw [after]
    rw [Multiset.coe_nil, add_zero, Multiset.singleton_add, Multiset.mem_cons] at member
    rcases member with rfl | member
    · exact ⟨by simp, room, Nat.lt_succ_self _⟩
    · obtain ⟨stored, real, used⟩ := held cell member
      refine ⟨by simp [others cell member, stored], real, ?_⟩
      rw [before] at used
      exact Nat.lt_succ_of_lt used
  · rw [Multiset.coe_nil, add_zero, Multiset.map_add, Multiset.map_singleton, Multiset.singleton_add,
      Multiset.nodup_cons]
    refine ⟨fun member => ?_, nodup⟩
    obtain ⟨cell, inside, same⟩ := Multiset.mem_map.mp member
    exact others cell inside same

/-- Allocating gives a page that was in no other place, unless all numbers are in use. -/
theorem alloc (heap : Heap map cells) (kind : PageKind) : map.answer (.allocPage kind) = .error (.refused .full) ∨
      ∃ id map', map.answer (.allocPage kind) = .ok (.ok id, map') ∧
        Heap map' ({(id, new kind)} + cells) ∧ SameRoots map map' := by
  obtain ⟨free, chained, held, nodup⟩ := heap
  cases free with
  | cons cell rest =>
    obtain ⟨id, page⟩ := cell
    obtain ⟨stored, real, -⟩ := held (id, page) (by simp)
    have head : map.content.freeListHead = id := chained.1
    have listed : map.content.freeListHead ≠ noPage := by
      rw [head]
      exact real
    have next : map.nextPage = id := by rw [nextPage, if_pos listed, head]
    have admits : map.Admits (.allocPage kind) := by
      change map.nextPage ≠ metaPage
      rw [next]
      exact real
    have called : map.call (.allocPage kind) = some (id, { map.set id (new kind) with
        content := { map.content with freeListHead := page.extra } }) := by
      change map.allocPage kind = _
      rw [allocPage, taken, if_pos listed, next, head, stored]
      rfl
    refine Or.inr ⟨id, _, ?_, take chained held nodup (new kind) rfl, rfl, rfl, rfl⟩
    rw [answer, if_pos admits, called]
  | nil =>
    have head : map.content.freeListHead = noPage := chained
    have next : map.nextPage = map.content.pageCount := by rw [nextPage, head, if_neg (by simp)]
    by_cases room : map.content.pageCount = 0
    · refine Or.inl ?_
      have refused : ¬ map.Admits (.allocPage kind) := by
        change ¬ map.nextPage ≠ metaPage
        rw [next, room]
        exact fun wrong => wrong rfl
      rw [answer, if_neg refused]
      rfl
    · have admits : map.Admits (.allocPage kind) := by
        change map.nextPage ≠ metaPage
        rw [next]
        exact room
      have called : map.call (.allocPage kind) = some (map.content.pageCount,
          { map.set map.content.pageCount (new kind) with
            content := { map.content with pageCount := map.content.pageCount + 1 } }) := by
        change map.allocPage kind = _
        rw [allocPage, taken, next, head, if_neg (by simp)]
        rfl
      rw [Multiset.coe_nil, add_zero] at held nodup
      refine Or.inr ⟨_, _, ?_, extend chained held nodup room (new kind), rfl, rfl, rfl⟩
      rw [answer, if_pos admits, called]

/-- A freed page goes to the free list. -/
theorem release (heap : Heap map ({(id, page)} + cells)) :
    ∃ map', map.answer (.freePage id) = .ok (.ok (), map') ∧ Heap map' cells ∧ SameRoots map map' := by
  have ⟨stored, real⟩ := heap.held
  have changed := heap.set ((new .free).setExtra map.content.freeListHead)
  obtain ⟨free, chained, held, nodup⟩ := changed
  have called : map.call (.freePage id) =
      some ((), { map.set id ((new .free).setExtra map.content.freeListHead) with
        content := { map.content with freeListHead := id } }) := by
    change map.freePage id = _
    rw [freePage, stored]
    rfl
  have admits : map.Admits (.freePage id) := real
  refine ⟨{ map.set id ((new .free).setExtra map.content.freeListHead) with
    content := { map.content with freeListHead := id } },
    by rw [answer, if_pos admits, called], ?_, rfl, rfl, rfl⟩
  have same : cells + ↑((id, (new .free).setExtra map.content.freeListHead) :: free) =
      {(id, (new .free).setExtra map.content.freeListHead)} + cells + ↑free := by
    rw [← Multiset.cons_coe, ← Multiset.singleton_add]
    abel
  refine ⟨(id, (new .free).setExtra map.content.freeListHead) :: free, ⟨rfl, chained⟩, ?_, ?_⟩
  · rw [same]
    exact held
  · rw [same]
    exact nodup

end Heap

/-! ## Specifications -/

namespace PageProg

variable {σ α β : Type}

/-- Given the pages `cells`, and whatever else there is, the program ends with a result and
pages that satisfy `post` and leaves everything else as it was; or the page numbers are
used up. -/
def Runs (prog : PageProg σ α) (cells : Multiset Cell)
    (post : Except FerriteError α → Multiset Cell → Prop) : Prop :=
  ∀ state map frame, Heap map (cells + frame) → prog.onMap state map = .error (.refused .full) ∨
      ∃ result map' cells', prog.onMap state map = .ok (result, state, map') ∧
        Heap map' (cells' + frame) ∧ SameRoots map map' ∧ post result cells'

/-- The program runs without an error. -/
def Does (prog : PageProg σ α) (cells : Multiset Cell) (post : α → Multiset Cell → Prop) : Prop :=
  Runs prog cells fun result after => ∃ value, result = .ok value ∧ post value after

variable {cells : Multiset Cell} {post : α → Multiset Cell → Prop}

variable {prog : PageProg σ α} {next : α → PageProg σ β}

variable {result : α} {last : Except FerriteError β → Multiset Cell → Prop} {op : PagerCall α} {id : PageId}

theorem Runs.fail {error : FerriteError} {post : Except FerriteError α → Multiset Cell → Prop}
    (holds : post (.error error) cells) : Runs (Prog.fail error : PageProg σ α) cells post :=
  fun _ map _ heap => Or.inr ⟨.error error, map, cells, rfl, heap, .refl map, holds⟩

theorem Runs.pure {post : Except FerriteError α → Multiset Cell → Prop} (holds : post (.ok result) cells) :
    Runs (Pure.pure result : PageProg σ α) cells post :=
  fun _ map _ heap => Or.inr ⟨.ok result, map, cells, rfl, heap, .refl map, holds⟩

theorem Does.pure (holds : post result cells) :
    Does (Pure.pure result : PageProg σ α) cells post := Runs.pure ⟨result, rfl, holds⟩

theorem Runs.mono {post weaker : Except FerriteError α → Multiset Cell → Prop} (runs : Runs prog cells post)
    (weaken : ∀ result after, post result after → weaker result after) : Runs prog cells weaker := by
  intro state map frame heap
  rcases runs state map frame heap with full | ⟨result, map', cells', ran, heap', roots, holds⟩
  · exact Or.inl full
  · exact Or.inr ⟨result, map', cells', ran, heap', roots, weaken _ _ holds⟩

/-- The rule of consequence. -/
theorem Does.mono {weaker : α → Multiset Cell → Prop} (does : Does prog cells post)
    (weaken : ∀ result after, post result after → weaker result after) : Does prog cells weaker := by
  refine Runs.mono does ?_
  rintro _ after ⟨value, rfl, holds⟩
  exact ⟨value, rfl, weaken value after holds⟩

/-- A program and what follows it; an error of the first ends both. -/
theorem Runs.bind {post : Except FerriteError α → Multiset Cell → Prop} (runs : Runs prog cells post)
    (rest : ∀ result after, post (.ok result) after → Runs (next result) after last)
    (ends : ∀ error after, post (.error error) after → last (.error error) after) :
    Runs (prog >>= next) cells last := by
  intro state map frame heap
  rcases runs state map frame heap with full | ⟨result, map', cells', ran, heap', roots, holds⟩
  · exact Or.inl (Prog.run_bind_stop full)
  · cases result with
    | error error =>
      exact Or.inr ⟨.error error, map', cells', Prog.run_bind_error ran, heap', roots, ends error cells' holds⟩
    | ok result =>
      have step := Prog.run_bind_ok next ran
      rcases rest result cells' holds state map' frame heap' with full |
        ⟨result', map'', cells'', ran', heap'', roots', holds'⟩
      · exact Or.inl (step.trans full)
      · exact Or.inr ⟨result', map'', cells'', step.trans ran', heap'', roots.trans roots', holds'⟩

/-- A program that does not fail, and then one that may. -/
theorem Does.then (does : Does prog cells post)
    (rest : ∀ result after, post result after → Runs (next result) after last) : Runs (prog >>= next) cells last := by
  refine Runs.bind does ?_ ?_
  · rintro result after ⟨value, same, holds⟩
    obtain rfl := Except.ok.inj same
    exact rest result after holds
  · rintro error after ⟨value, same, -⟩
    cases same

/-- The rule for sequences. -/
theorem Does.bind {last : β → Multiset Cell → Prop} (does : Does prog cells post)
    (rest : ∀ result after, post result after → Does (next result) after last) :
    Does (prog >>= next) cells last := does.then rest

/-- What a program does to its pages, it does beside any others. -/
theorem Runs.frame {post : Except FerriteError α → Multiset Cell → Prop} (runs : Runs prog cells post)
    (beside : Multiset Cell) :
    Runs prog (cells + beside) fun result after => ∃ own, post result own ∧ after = own + beside := by
  intro state map frame heap
  rw [add_assoc] at heap
  rcases runs state map (beside + frame) heap with full | ⟨result, map', cells', ran, heap', roots, holds⟩
  · exact Or.inl full
  · rw [← add_assoc] at heap'
    exact Or.inr ⟨result, map', cells' + beside, ran, heap', roots, cells', holds, rfl⟩

/-- Pages in different places, none of them the meta page. -/
def Distinct (cells : Multiset Cell) : Prop := (cells.map Prod.fst).Nodup ∧ ∀ cell ∈ cells, cell.1 ≠ metaPage

theorem Distinct.left {first second : Multiset Cell} (distinct : Distinct (first + second)) : Distinct first := by
  obtain ⟨nodup, real⟩ := distinct
  rw [Multiset.map_add] at nodup
  exact ⟨(Multiset.nodup_add.mp nodup).1, fun cell member => real cell (by simp [member])⟩

/-- There are fewer pages than page numbers. -/
theorem Distinct.length_lt {chain : List Cell} (distinct : Distinct ↑chain) : chain.length < 2 ^ 32 := by
  obtain ⟨nodup, real⟩ := distinct
  have ids : (metaPage :: chain.map Prod.fst).Nodup := by
    refine List.nodup_cons.mpr ⟨fun member => ?_, by simpa using nodup⟩
    obtain ⟨cell, inChain, same⟩ := List.mem_map.mp member
    exact real cell (by simpa using inChain) same
  have bound := List.Nodup.length_le_card ids
  rw [Fintype.card_fin, List.length_cons, List.length_map] at bound
  exact bound

/-- A program is only ever given pages in different places. -/
theorem Runs.of_distinct {post : Except FerriteError α → Multiset Cell → Prop}
    (runs : Distinct cells → Runs prog cells post) : Runs prog cells post := by
  intro state map frame heap
  refine runs ?_ state map frame heap
  obtain ⟨free, -, held, nodup⟩ := heap
  refine ⟨?_, fun cell member => (held cell (by simp [member])).2.1⟩
  rw [add_assoc, Multiset.map_add] at nodup
  exact (Multiset.nodup_add.mp nodup).1

theorem does_ask (answers : ∀ map frame, Heap map (cells + frame) → map.answer op = .error (.refused .full) ∨
        ∃ result map' cells', map.answer op = .ok (.ok result, map') ∧ Heap map' (cells' + frame) ∧
          SameRoots map map' ∧ post result cells') : Does (Prog.ask op : PageProg σ α) cells post := by
  intro state map frame heap
  rcases answers map frame heap with full | ⟨result, map', cells', answered, heap', roots, holds⟩
  · refine Or.inl ?_
    rw [onMap, Prog.ask, Prog.run, full]
  · exact Or.inr ⟨_, map', cells', Prog.run_ask answered, heap', roots, result, rfl, holds⟩

/-! ## The calls -/

def allocPage (kind : PageKind) : PageProg σ PageId := Prog.ask (.allocPage kind)

def freePage (id : PageId) : PageProg σ Unit := Prog.ask (.freePage id)

def withPage (id : PageId) : PageProg σ Page := Prog.ask (.withPage id)

/-- Change a page; the result is the page before. -/
def withPageMut (id : PageId) (change : Page → Page) : PageProg σ Page := Prog.ask (.withPageMut id change)

theorem noAlloc_withPage (id : PageId) : NoAlloc (withPage id : PageProg σ Page) := Prog.avoids_ask rfl

theorem noAlloc_withPageMut (id : PageId) (change : Page → Page) :
    NoAlloc (withPageMut id change : PageProg σ Page) := Prog.avoids_ask rfl

theorem noAlloc_freePage (id : PageId) : NoAlloc (freePage id : PageProg σ Unit) := Prog.avoids_ask rfl

/-- A new page is owned besides all others. -/
theorem does_allocPage (kind : PageKind) : Does (allocPage kind : PageProg σ PageId) cells
      fun id after => after = {(id, new kind)} + cells := by
  refine does_ask fun map frame heap => ?_
  rcases heap.alloc kind with full | ⟨id, map', answered, heap', roots⟩
  · exact Or.inl full
  · refine Or.inr ⟨id, map', {(id, new kind)} + cells, answered, ?_, roots, rfl⟩
    rw [add_assoc]
    exact heap'

/-- A freed page is owned no longer. -/
theorem does_freePage (id : PageId) (page : Page) :
    Does (freePage id : PageProg σ Unit) ({(id, page)} + cells) fun _ after => after = cells := by
  refine does_ask fun map frame heap => ?_
  rw [add_assoc] at heap
  obtain ⟨map', answered, heap', roots⟩ := heap.release
  exact Or.inr ⟨(), map', cells, answered, heap', roots, rfl⟩

/-- A page that is owned is read. -/
theorem does_withPage (page : Page) (member : (id, page) ∈ cells) :
    Does (withPage id : PageProg σ Page) cells fun result after => result = page ∧ after = cells := by
  refine does_ask fun map frame heap => ?_
  obtain ⟨rest, split⟩ := Multiset.exists_cons_of_mem member
  have heap' := heap
  rw [split, ← Multiset.singleton_add, add_assoc] at heap'
  obtain ⟨stored, real⟩ := heap'.held
  have admits : map.Admits (.withPage id) := real
  have called : map.call (.withPage id) = some (page, map) := by
    change (map.pages id).map (fun page => (page, map)) = _
    rw [stored]
    rfl
  refine Or.inr ⟨page, map, cells, ?_, heap, .refl map, rfl, rfl⟩
  rw [answer, if_pos admits, called]

private theorem does_set {page changed : Page} (result : α)
    (answers : ∀ map : PageMap, map.pages id = some page → id ≠ metaPage →
      map.answer op = .ok (.ok result, map.set id changed)) :
    Does (Prog.ask op : PageProg σ α) ({(id, page)} + cells)
      fun value after => value = result ∧ after = {(id, changed)} + cells := by
  refine does_ask fun map frame heap => ?_
  rw [add_assoc] at heap
  obtain ⟨stored, real⟩ := heap.held
  refine Or.inr ⟨result, map.set id changed, {(id, changed)} + cells, answers map stored real, ?_, ⟨rfl, rfl, rfl⟩, rfl, rfl⟩
  rw [add_assoc]
  exact heap.set changed

/-- A page that is owned is changed, and nothing else. -/
theorem does_withPageMut (id : PageId) (page : Page) (change : Page → Page) :
    Does (withPageMut id change : PageProg σ Page) ({(id, page)} + cells)
      fun result after => result = page ∧ after = {(id, change page)} + cells := by
  refine does_set page fun map stored real => ?_
  have admits : map.Admits (.withPageMut id change) := real
  have called : map.call (.withPageMut id change) = some (page, map.set id (change page)) := by
    change (map.pages id).map (fun page => (page, map.set id (change page))) = _
    rw [stored]
    rfl
  rw [answer, if_pos admits, called]

theorem does_writePage (id : PageId) (old page : Page) :
    Does (Prog.ask (.writePage id page) : PageProg σ Unit) ({(id, old)} + cells)
      fun _ after => after = {(id, page)} + cells := by
  refine Does.mono (does_set () fun map stored real => ?_) fun _ _ both => both.2
  have admits : map.Admits (.writePage id page) := real
  have called : map.call (.writePage id page) = some ((), map.set id page) := by
    change (map.pages id).map (fun _ => ((), map.set id page)) = _
    rw [stored]
    rfl
  rw [answer, if_pos admits, called]

/-! ## On a pager -/

/-- A program on a pager, as long as there are page numbers left. -/
theorem Runs.onPager {post : Except FerriteError α → Multiset Cell → Prop} (runs : Runs prog cells post) {state : σ}
    {map : PageMap} {pager : Pager} {frame : Multiset Cell} (holds : pager.Holds map)
    (heap : Heap map (cells + frame)) (room : prog.onMap state map ≠ .error (.refused .full)) :
    ∃ result map' pager' cells', prog.onPager state pager = .ok (result, state, pager') ∧
      prog.onMap state map = .ok (result, state, map') ∧ pager'.Holds map' ∧
      Heap map' (cells' + frame) ∧ post result cells' := by
  rcases runs state map frame heap with full | ⟨result, map', cells', ran, heap', -, holds'⟩
  · exact absurd full room
  · obtain ⟨pager', ran', held⟩ := onPager_of_onMap prog holds ran
    exact ⟨result, map', pager', cells', ran', ran, held, heap', holds'⟩

end PageProg
end Ferrite.Storage
