import Ferrite.Logical.LittleEndian
import Ferrite.Common.Value

/-!
# Pages

The fixed-size page (`ferrite-storage/src/page.rs`). A page holds either items in a
slot directory or one record in its body; the model keeps the two apart instead of
as one array of bytes. What the slot directory costs is kept exactly: an item needs
its bytes and a slot in the contiguous free space, a removed item leaves a hole, and
only compaction gives the hole back. The layout every reader of a page checks is
part of the type.
-/

namespace Ferrite.Storage

open Logical

abbrev Bytes := List UInt8

instance wordNeZero : NeZero (2 ^ 32) := ⟨by decide⟩

instance doubleWordNeZero : NeZero (2 ^ 64) := ⟨by decide⟩

/-- A page number, a 32-bit word. -/
abbrev PageId := Fin (2 ^ 32)

def pageSize : Nat := 8192

def headerSize : Nat := 24

/-- Bytes a slot takes in the slot array. -/
def slotSize : Nat := 4

/-- Page 0 always holds the database metadata. -/
def metaPage : PageId := 0

/-- Sentinel for "no page". -/
def noPage : PageId := 0

/-- What a page is used for; `extra` means something else for each kind. -/
inductive PageKind where
  | metadata
  | leaf
  | internal
  | overflow
  | tableHeader
  | clog
  | free
deriving DecidableEq, Repr

/-- The bytes after the header of a page that holds one fixed record. -/
abbrev Body := Nat → UInt8

namespace Body

/-- Overwrite the bytes from `offset` on. -/
def write (body : Body) (offset : Nat) (bytes : Bytes) : Body := fun index =>
  if offset ≤ index then bytes.getD (index - offset) (body index) else body index

/-- The `width` bytes from `offset` on. -/
def slice (body : Body) (offset width : Nat) : Bytes := (List.range width).map fun index => body (offset + index)

/-- A little-endian number of `width` bytes. -/
def readLe (body : Body) (offset width : Nat) : Nat := ofLe (body.slice offset width)

@[simp] theorem length_slice (body : Body) (offset width : Nat) : (body.slice offset width).length = width := by
  simp [slice]

/-- What was written is read back. -/
theorem slice_write (body : Body) (offset start width : Nat) (bytes : Bytes) (inside : start + width ≤ bytes.length) :
    (body.write offset bytes).slice (offset + start) width = (bytes.drop start).take width := by
  refine List.ext_getElem (by simp; omega) fun index inSlice inBytes => ?_
  have here : start + index < bytes.length := by simp at inSlice; omega
  have position : offset + start + index - offset = start + index := by omega
  have beyond : offset ≤ offset + start + index := by omega
  simp [slice, write, beyond, position, List.getElem?_eq_getElem here]

theorem slice_write_of_disjoint (body : Body) (offset start width : Nat) (bytes : Bytes)
    (apart : start + width ≤ offset ∨ offset + bytes.length ≤ start) :
    (body.write offset bytes).slice start width = body.slice start width := by
  refine List.map_congr_left fun index member => ?_
  have below : index < width := List.mem_range.mp member
  unfold write
  rcases apart with before | after
  · rw [if_neg (by omega)]
  · rw [if_pos (by omega), List.getD_eq_getElem?_getD, List.getElem?_eq_none (by omega)]
    rfl

end Body

/-- A page in memory. The slot array ends before the item area starts, and the items
lie in the item area: no other page can be built, so none is refused on the way in
from disk. In the source items and body share their bytes; see `OneUse`. -/
@[ext] structure Page where
  kind : PageKind
  extra : PageId
  items : List Bytes
  /-- Start of the item area, which grows downward. -/
  freeEnd : Nat
  body : Body
  slotsFit : headerSize + slotSize * items.length ≤ freeEnd
  itemsFit : freeEnd + (items.map List.length).sum ≤ pageSize

namespace Page

/-- An empty page of a kind. -/
def new (kind : PageKind) : Page where
  kind := kind
  extra := noPage
  items := []
  freeEnd := pageSize
  body := fun _ => 0
  slotsFit := by simp [headerSize, pageSize]
  itemsFit := by simp

/-- The page is used through its body, without an item area, or through its items, with the body
left alone. Only such a page is laid out here as it is in the source: there the body covers the
slots and the items, and writing into it may leave a layout that is refused on the way in. -/
def OneUse (page : Page) : Prop := page.items = [] ∧ page.freeEnd = pageSize ∨ page.body = fun _ => 0

def setExtra (page : Page) (extra : PageId) : Page := { page with extra := extra }

/-- Write into the record of a page that holds one. -/
def writeBody (page : Page) (offset : Nat) (bytes : Bytes) : Page :=
  { page with body := page.body.write offset bytes }

def slotCount (page : Page) : Nat := page.items.length

def item (page : Page) (index : Nat) : Bytes := page.items.getD index []

/-- Space an item needs, its slot included. -/
def itemCost (length : Nat) : Nat := length + slotSize

def freeSpace (page : Page) : Nat := page.freeEnd - (headerSize + slotSize * page.items.length)

private theorem sum_insertIdx_le (items : List Bytes) (index : Nat) (data : Bytes) :
    ((items.insertIdx index data).map List.length).sum ≤ (items.map List.length).sum + data.length := by
  induction items generalizing index with
  | nil => cases index <;> simp
  | cons head rest ih =>
    cases index with
    | zero => simp; omega
    | succ index =>
      have := ih index
      simp only [List.insertIdx_succ_cons, List.map_cons, List.sum_cons]
      omega

private theorem sum_eraseIdx_le (items : List Bytes) (index : Nat) :
    ((items.eraseIdx index).map List.length).sum ≤ (items.map List.length).sum := by
  induction items generalizing index with
  | nil => simp
  | cons head rest ih =>
    cases index with
    | zero => simp
    | succ index =>
      have := ih index
      simp only [List.eraseIdx_cons_succ, List.map_cons, List.sum_cons]
      omega

/-- Insert an item at a slot position, or nothing if the contiguous free space is too
small. -/
def insertItem (page : Page) (index : Nat) (data : Bytes) : Option Page :=
  if fits : itemCost data.length ≤ page.freeSpace then
    some
      { page with
        items := page.items.insertIdx index data
        freeEnd := page.freeEnd - data.length
        slotsFit := by
          have slots := page.slotsFit
          have bound : (page.items.insertIdx index data).length ≤ page.items.length + 1 := by
            rw [List.length_insertIdx]
            split <;> omega
          simp only [itemCost, freeSpace, headerSize, slotSize] at fits slots ⊢
          omega
        itemsFit := by
          have items := page.itemsFit
          have bound := sum_insertIdx_le page.items index data
          simp only [itemCost, freeSpace, headerSize, slotSize] at fits
          omega }
  else none

/-- Drop a slot; the bytes of its item stay behind as a hole. -/
def removeItem (page : Page) (index : Nat) : Page :=
  { page with
    items := page.items.eraseIdx index
    slotsFit := by
      have slots := page.slotsFit
      have bound := List.length_eraseIdx_le page.items index
      simp only [headerSize, slotSize] at slots ⊢
      omega
    itemsFit := by
      have items := page.itemsFit
      have bound := sum_eraseIdx_le page.items index
      omega }

/-- Rewrite the item area with no holes. -/
def compact (page : Page) : Page :=
  { page with
    freeEnd := pageSize - (page.items.map List.length).sum
    slotsFit := by
      have slots := page.slotsFit
      have items := page.itemsFit
      omega
    itemsFit := by
      have items := page.itemsFit
      omega }

def overwriteItem (page : Page) (index : Nat) (data : Bytes)
    (same : data.length = (page.item index).length) : Page :=
  { page with
    items := page.items.set index data
    slotsFit := by
      rw [List.length_set]
      exact page.slotsFit
    itemsFit := by
      have lengths : (page.items.set index data).map List.length = page.items.map List.length := by
        rw [List.map_set, same, item]
        refine List.ext_getElem? fun position => ?_
        rw [List.getElem?_set]
        split
        · rename_i here
          subst here
          simp only [List.length_map, List.getElem?_map, List.getD_eq_getElem?_getD]
          split
          · rename_i inside
            simp [List.getElem?_eq_getElem inside]
          · rename_i outside
            simp [List.getElem?_eq_none (not_lt.mp outside)]
        · rfl
      rw [lengths]
      exact page.itemsFit }

/-- Replace an item: in place if the length is the same, else by removing and
inserting, compacting in between if that is needed. Nothing if it does not fit. -/
def replaceItem (page : Page) (index : Nat) (data : Bytes) : Option Page :=
  if same : data.length = (page.item index).length then some (page.overwriteItem index data same)
  else
    let removed := page.removeItem index
    let ready := if removed.freeSpace < itemCost data.length then removed.compact else removed
    ready.insertItem index data

end Page
end Ferrite.Storage
