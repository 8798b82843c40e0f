import Ferrite.Logical.BinarySearch
import Ferrite.Storage.PageProgram

/-!
# The B+-tree

`ferrite-storage/src/btree.rs`: a tree keyed by `u64` with byte strings as payloads, in
leaves chained from left to right. A payload too long for a leaf lives in a chain of
overflow pages. Loops over pages that a damaged file could make endless are cut off after
as many turns as there are page numbers.
-/

namespace Ferrite.Storage

open Logical

/-- A key of a tree, a 64-bit word. -/
abbrev Key := Fin (2 ^ 64)

/-- The name `{:?}` prints. -/
def PageKind.name : PageKind → String
  | .metadata => "Meta"
  | .leaf => "Leaf"
  | .internal => "Internal"
  | .overflow => "Overflow"
  | .tableHeader => "TableHeader"
  | .clog => "Clog"
  | .free => "Free"

namespace BTree

def keyLen : Nat := 8

def flagInline : UInt8 := 0

def flagOverflow : UInt8 := 1

def leafHeader : Nat := keyLen + 1

def overflowDescriptor : Nat := leafHeader + 8

/-- Payloads above this go to overflow pages. -/
def maxInline : Nat := 2000

/-- Bytes of payload in one overflow page, after the length of the chunk. -/
def overflowChunk : Nat := pageSize - headerSize - 4

def corrupt (message : String) : FerriteError := .storage s!"btree: {message}"

/-- A little-endian field of an item, as if the item went on with zeros. -/
def leField (item : Bytes) (offset width : Nat) : Nat := ofLe ((item.drop offset).take width)

def itemKey (item : Bytes) : Key := Fin.ofNat _ (leField item 0 keyLen)

def internalChild (item : Bytes) : PageId := Fin.ofNat _ (leField item keyLen 4)

def makeInternalItem (key : Key) (child : PageId) : Bytes := toLe keyLen key.val ++ toLe 4 child.val

/-- Turns after which a walk over pages must have met a page twice. -/
def walkLimit : Nat := 2 ^ 32

variable {σ : Type}

open PageProg

/-- An empty tree; the result is its root. -/
def create : PageProg σ PageId := do
  let id ← allocPage .leaf
  let _ ← withPageMut id fun page => page.setExtra noPage
  pure id

def slotSearch (page : Page) (key : Key) : Except Nat Nat :=
  search (fun index => itemKey (page.item index)) page.slotCount key

def childFor (page : Page) (key : Key) : PageId :=
  match slotSearch page key with
  | .ok index => internalChild (page.item index)
  | .error 0 => page.extra
  | .error (index + 1) => internalChild (page.item index)

/-- The loop of `descend`; the path has its lowest node first. -/
def descendFrom (key : Key) : Nat → PageId → List PageId → PageProg σ (PageId × List PageId)
  | 0, _, _ => .fail (corrupt "tree depth exceeded 64 levels")
  | fuel + 1, id, path => do
    let page ← withPage id
    match page.kind with
    | .leaf => pure (id, path)
    | .internal => descendFrom key fuel (childFor page key) (id :: path)
    | other => .fail (corrupt s!"expected a node page, found {other.name}")

/-- The leaf that would contain the key, and the internal nodes above it. -/
def descend (root : PageId) (key : Key) : PageProg σ (PageId × List PageId) := descendFrom key 64 root []

/-! ## Payloads -/

/-- Pieces of the chunk size, the last one shorter; the fuel is the length. -/
def chunksOf : Nat → Bytes → List Bytes
  | 0, _ => []
  | fuel + 1, data =>
    if data.isEmpty then [] else data.take overflowChunk :: chunksOf fuel (data.drop overflowChunk)

def chunks (data : Bytes) : List Bytes :=
  if data.isEmpty then [[]] else chunksOf data.length data

/-- What a fresh overflow page gets. -/
def fillOverflow (chunk : Bytes) (next : PageId) (page : Page) : Page :=
  ((page.setExtra next).writeBody 0 (toLe 4 chunk.length)).writeBody 4 chunk

/-- Write chunks, the last of them first, so that each page knows its successor. -/
def writeChunks : List Bytes → PageId → PageProg σ PageId
  | [], next => pure next
  | chunk :: before, next => do
    let id ← allocPage .overflow
    let _ ← withPageMut id (fillOverflow chunk next)
    writeChunks before id

def writeOverflow (data : Bytes) : PageProg σ PageId := writeChunks (chunks data).reverse noPage

def readChain : Nat → PageId → Bytes → PageProg σ Bytes
  | 0, _, _ => .hang
  | fuel + 1, id, out =>
    if id = noPage then pure out
    else do
      let page ← withPage id
      if page.kind ≠ .overflow then
        .fail (corrupt "overflow chain points at a non-overflow page")
      else if overflowChunk < page.body.readLe 0 4 then
        .fail (corrupt "overflow chunk length out of range")
      else readChain fuel page.extra (out ++ page.body.slice 4 (page.body.readLe 0 4))

def readOverflow (first : PageId) (total : Nat) : PageProg σ Bytes := do
  let out ← readChain walkLimit first []
  if out.length ≠ total then
    .fail (corrupt "overflow chain length does not match its descriptor")
  else pure out

def freeChain : Nat → PageId → PageProg σ Unit
  | 0, _ => .hang
  | fuel + 1, id =>
    if id = noPage then pure ()
    else do
      let page ← withPage id
      freePage id
      freeChain fuel page.extra

def freeOverflow (first : PageId) : PageProg σ Unit := freeChain walkLimit first

/-- Free the overflow chain a leaf item points at, if any. -/
def releaseItem (item : Bytes) : PageProg σ Unit :=
  if overflowDescriptor ≤ item.length ∧ item.getD keyLen 0 = flagOverflow then
    freeOverflow (Fin.ofNat _ (leField item (keyLen + 5) 4))
  else pure ()

/-- A leaf item that holds its payload. -/
def inlineItem (key : Key) (payload : Bytes) : Bytes := toLe keyLen key.val ++ flagInline :: payload

/-- A leaf item that points at its payload. -/
def overflowItem (key : Key) (total : Nat) (first : PageId) : Bytes :=
  toLe keyLen key.val ++ flagOverflow :: (toLe 4 total ++ toLe 4 first.val)

def buildItem (key : Key) (payload : Bytes) : PageProg σ Bytes :=
  if payload.length ≤ maxInline then pure (inlineItem key payload)
  else do
    let first ← writeOverflow payload
    pure (overflowItem key payload.length first)

def payloadOf (item : Bytes) : PageProg σ Bytes :=
  if item.length < leafHeader then .fail (corrupt "leaf item shorter than its header")
  else if item.getD keyLen 0 = flagInline then pure (item.drop leafHeader)
  else if item.getD keyLen 0 = flagOverflow then
    if item.length < overflowDescriptor then .fail (corrupt "truncated overflow descriptor")
    else readOverflow (Fin.ofNat _ (leField item (leafHeader + 4) 4)) (leField item leafHeader 4)
  else .fail (corrupt s!"unknown leaf item flag {item.getD keyLen 0}")

/-- The payload stored under a key. -/
def lookup (root : PageId) (key : Key) : PageProg σ (Option Bytes) := do
  let (leaf, _) ← descend root key
  let page ← withPage leaf
  match slotSearch page key with
  | .ok index => do
    let payload ← payloadOf (page.item index)
    pure (some payload)
  | .error _ => pure none

/-! ## Writing -/

/-- A fresh page with the items in order, unless they do not fit. -/
def filled (kind : PageKind) (extra : PageId) (items : List Bytes) : Option Page :=
  items.zipIdx.foldlM (fun page indexed => page.insertItem indexed.2 indexed.1) ((Page.new kind).setExtra extra)

/-- Replace a page by a fresh one that holds the items. -/
def fillPage (kind : PageKind) (tooLarge : String) (id : PageId) (items : List Bytes)
    (extra : PageId) : PageProg σ Unit := do
  let _ ← withPageMut id fun page => (filled kind extra items).getD page
  match filled kind extra items with
  | some _ => pure ()
  | none => .fail (corrupt tooLarge)

def fillLeaf (id : PageId) (items : List Bytes) (sibling : PageId) : PageProg σ Unit :=
  fillPage .leaf "split produced a half that does not fit in a page" id items sibling

def fillInternal (id : PageId) (items : List Bytes) (leftmost : PageId) : PageProg σ Unit :=
  fillPage .internal "internal split produced an oversized half" id items leftmost

/-- The first position at which the running cost reaches half the total, but not zero; zero
if there is none. -/
def splitPoint (total : Nat) : List Bytes → Nat → Nat → Nat
  | [], _, _ => 0
  | entry :: rest, index, running =>
    if total ≤ (running + Page.itemCost entry.length) * 2 then max index 1
    else splitPoint total rest (index + 1) (running + Page.itemCost entry.length)

/-- Where a leaf with these items is cut. -/
def splitAt (items : List Bytes) : Nat :=
  let total := (items.map fun item => Page.itemCost item.length).sum
  let at' := splitPoint total items 0 0
  if at' = 0 ∨ items.length ≤ at' then items.length / 2 else at'

/-- Split a leaf after inserting an item; the result is the separator and the new page. -/
def splitLeaf (leaf : PageId) (index : Nat) (item : Bytes) : PageProg σ (Key × PageId) := do
  let page ← withPage leaf
  let items := page.items.insertIdx index item
  if items.length < 2 then .fail (corrupt "a single entry does not fit in an empty leaf")
  else do
    let right ← allocPage .leaf
    fillLeaf leaf (items.take (splitAt items)) right
    fillLeaf right (items.drop (splitAt items)) page.extra
    pure (itemKey (items.getD (splitAt items) []), right)

/-- Split an internal node after inserting an item; its middle item moves up. -/
def splitInternal (node : PageId) (index : Nat) (item : Bytes) : PageProg σ (Key × PageId) := do
  let page ← withPage node
  let items := page.items.insertIdx index item
  if items.length < 3 then .fail (corrupt "internal node too small to split")
  else do
    let middle := items.length / 2
    let promoted := items.getD middle []
    let right ← allocPage .internal
    fillInternal node (items.take middle) page.extra
    fillInternal right (items.drop (middle + 1)) (internalChild promoted)
    pure (itemKey promoted, right)

/-- Push a separator and a right child up the path; the lowest node comes first. -/
def propagate (root : PageId) : List PageId → Key → PageId → PageProg σ PageId
  | [], sep, right => do
    let newRoot ← allocPage .internal
    let _ ← withPageMut newRoot fun page =>
      let page := page.setExtra root
      (page.insertItem 0 (makeInternalItem sep right)).getD page
    pure newRoot
  | parent :: path, sep, right => do
    let item := makeInternalItem sep right
    let page ← withPage parent
    match slotSearch page sep with
    | .ok _ => .fail (corrupt "duplicate separator key in an internal node")
    | .error index => do
      let before ← withPageMut parent fun page => (page.insertItem index item).getD page
      if (before.insertItem index item).isSome then pure root
      else do
        let (upSep, upRight) ← splitInternal parent index item
        propagate root path upSep upRight

/-- Write an item at a slot of a leaf that had no room for it. -/
def splitUp (root leaf : PageId) (path : List PageId) (index : Nat) (item : Bytes) :
    PageProg σ PageId := do
  let (sep, right) ← splitLeaf leaf index item
  propagate root path sep right

/-- Insert or replace; the result is the root, which is new when the old one was split. -/
def upsert (root : PageId) (key : Key) (payload : Bytes) : PageProg σ PageId := do
  let (leaf, path) ← descend root key
  let item ← buildItem key payload
  let page ← withPage leaf
  match slotSearch page key with
  | .ok index => do
    releaseItem (page.item index)
    let before ← withPageMut leaf fun page => (page.replaceItem index item).getD page
    if (before.replaceItem index item).isSome then pure root
    else do
      let _ ← withPageMut leaf fun page => page.removeItem index
      splitUp root leaf path index item
  | .error _ => do
    let page ← withPage leaf
    match slotSearch page key with
    -- unreachable: absence was just established
    | .ok _ => .hang
    | .error index => do
      let before ← withPageMut leaf fun page => (page.insertItem index item).getD page
      if (before.insertItem index item).isSome then pure root
      else splitUp root leaf path index item

/-- Remove a key; the result is whether it was there. Nodes are never merged. -/
def remove (root : PageId) (key : Key) : PageProg σ Bool := do
  let (leaf, _) ← descend root key
  let page ← withPage leaf
  match slotSearch page key with
  | .ok index => do
    releaseItem (page.item index)
    let _ ← withPageMut leaf fun page => page.removeItem index
    pure true
  | .error _ => pure false

/-! ## Traversal -/

/-- The position a search ends at, found or not. -/
def position : Except Nat Nat → Nat
  | .ok index => index
  | .error index => index

def seekFrom (start : Key) : Nat → PageId → PageProg σ (Option (Key × Bytes))
  | 0, _ => .hang
  | fuel + 1, leaf => do
    let page ← withPage leaf
    let index := position (slotSearch page start)
    if index < page.slotCount then do
      let payload ← payloadOf (page.item index)
      pure (some (itemKey (page.item index), payload))
    else do
      let page ← withPage leaf
      if page.extra = noPage then pure none else seekFrom start fuel page.extra

/-- The least key that is not below `start`, with its payload. -/
def seek (root : PageId) (start : Key) : PageProg σ (Option (Key × Bytes)) := do
  let (leaf, _) ← descend root start
  seekFrom start walkLimit leaf

end BTree
end Ferrite.Storage
