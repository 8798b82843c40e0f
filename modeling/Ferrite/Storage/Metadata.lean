import Ferrite.Storage.Page

/-!
# The meta page

Contents of page 0 (`Meta` in `ferrite-storage/src/pager.rs`): the allocator, the
transaction counter, the catalog root and the commit-log directory. The directory
has to fit into the page, which bounds how many transactions a database can record.
-/

namespace Ferrite.Storage

open Logical

/-- Transactions one commit-log page covers: eight for each body byte. -/
def txnsPerClogPage : Nat := (pageSize - headerSize) * 8

/-- Where the commit-log directory starts in the body of the meta page. -/
def metaClogBase : Nat := 40

/-- Commit-log segments the directory in the meta page can address. -/
def clogDirectoryCapacity : Nat := (pageSize - headerSize - metaClogBase) / 4

/-- The first transaction id whose outcome the format cannot record. -/
def maxTxnId : TxnId := clogDirectoryCapacity * txnsPerClogPage

/-- Below the ceiling, the commit log has room for the segment of an id. -/
theorem segment_le_capacity {txn : TxnId} (belowCeiling : txn < maxTxnId) :
    txn / txnsPerClogPage + 1 ≤ clogDirectoryCapacity := by
  refine Nat.div_lt_of_lt_mul ?_
  rw [Nat.mul_comm]
  exact belowCeiling

/-- The text of the error the meta page raises at the commit-log ceiling. -/
def ceilingError : FerriteError :=
  .storage s!"commit-log directory is full ({clogDirectoryCapacity} segments); v1 supports at most {maxTxnId} transactions per database"

/-- `FERRITE1`, the first bytes of every database. -/
def magic : Bytes := [70, 69, 82, 82, 73, 84, 69, 49]

def formatVersion : Nat := 1

/-- The decoded meta page. -/
@[ext] structure Meta where
  pageCount : PageId
  freeListHead : PageId
  nextTxnId : Fin (2 ^ 64)
  /-- Root of the tree that maps a table id to its header page. -/
  catalogRoot : PageId
  clogPages : List PageId
deriving DecidableEq

namespace Meta

/-- The meta page of a new database; page 0 is the meta page itself. -/
def fresh : Meta where
  pageCount := 1
  freeListHead := noPage
  nextTxnId := 1
  catalogRoot := noPage
  clogPages := []

def record (content : Meta) : Bytes :=
  magic ++ toLe 4 formatVersion ++ toLe 4 pageSize ++ toLe 4 content.pageCount.val ++
    toLe 4 content.freeListHead.val ++ toLe 8 content.nextTxnId.val ++ toLe 4 content.catalogRoot.val ++
    toLe 4 content.clogPages.length ++ content.clogPages.flatMap fun id => toLe 4 id.val

/-- The meta page, unless the commit-log directory does not fit. -/
def encode (content : Meta) : Except FerriteError Page :=
  if clogDirectoryCapacity < content.clogPages.length then .error ceilingError
  else .ok ((Page.new .metadata).writeBody 0 content.record)

def decode (page : Page) : Except FerriteError Meta :=
  let body := page.body
  if body.slice 0 8 ≠ magic then .error (.storage "not a Ferrite database file (bad magic)")
  else if body.readLe 8 4 ≠ formatVersion then
    .error (.storage
      s!"unsupported storage format version {body.readLe 8 4}, expected {formatVersion}")
  else if body.readLe 12 4 ≠ pageSize then
    .error (.storage
      s!"database was created with {body.readLe 12 4}-byte pages, this build uses {pageSize}")
  else if clogDirectoryCapacity < body.readLe 36 4 then
    .error (.storage "corrupt meta page: commit-log directory length out of range")
  else
    .ok
      { pageCount := Fin.ofNat _ (body.readLe 16 4)
        freeListHead := Fin.ofNat _ (body.readLe 20 4)
        nextTxnId := Fin.ofNat _ (body.readLe 24 8)
        catalogRoot := Fin.ofNat _ (body.readLe 32 4)
        clogPages := (List.range (body.readLe 36 4)).map fun index =>
          Fin.ofNat _ (body.readLe (metaClogBase + index * 4) 4) }

theorem length_clogPages_of_decode {page : Page} {content : Meta}
    (decoded : decode page = .ok content) : content.clogPages.length ≤ clogDirectoryCapacity := by
  unfold decode at decoded
  dsimp only at decoded
  split at decoded
  · simp at decoded
  · split at decoded
    · simp at decoded
    · split at decoded
      · simp at decoded
      · split at decoded
        · simp at decoded
        · rename_i fits
          obtain rfl := Except.ok.inj decoded
          simpa using fits

private theorem slice_record (content : Meta) (start width : Nat) (inside : start + width ≤ content.record.length) :
    (((Page.new .metadata).writeBody 0 content.record).body).slice start width =
      (content.record.drop start).take width := by
  have written := Body.slice_write (fun _ => 0) 0 start width content.record inside
  rwa [Nat.zero_add] at written

private theorem length_record (content : Meta) : content.record.length = metaClogBase + 4 * content.clogPages.length
    := by
  simp [record, magic, metaClogBase, List.length_flatMap]
  omega

private theorem directory_entry (ids : List PageId) (index : Nat) (inside : index < ids.length) :
    ((ids.flatMap fun id => toLe 4 id.val).drop (index * 4)).take 4 = toLe 4 ids[index].val := by
  induction ids generalizing index with
  | nil => simp at inside
  | cons head rest ih =>
    cases index with
    | zero => simp
    | succ index =>
      have step : (index + 1) * 4 = (toLe 4 head.val).length + index * 4 := by
        rw [length_toLe]
        omega
      rw [List.flatMap_cons, step, List.drop_length_add_append, List.getElem_cons_succ]
      exact ih index (by simpa using inside)

/-- Reading the meta page gives back what was written into it. -/
theorem decode_encode {content : Meta} {page : Page} (encoded : content.encode = .ok page) :
    decode page = .ok content := by
  unfold encode at encoded
  split at encoded
  · simp at encoded
  · rename_i fits
    obtain rfl := Except.ok.inj encoded
    have length := content.length_record
    have slices := content.slice_record
    rw [length, metaClogBase] at slices
    have count : content.clogPages.length < 256 ^ 4 := by
      refine lt_of_le_of_lt (not_lt.mp fits) ?_
      decide
    have isMagic : Body.slice ((Page.new .metadata).writeBody 0 content.record).body 0 8 = magic := by
      rw [slices 0 8 (by omega)]
      simp [record, magic]
    have field : ∀ start width value, start + width ≤ 40 → value < 256 ^ width →
        (content.record.drop start).take width = toLe width value →
          Body.readLe ((Page.new .metadata).writeBody 0 content.record).body start width = value := by
      intro start width value inside bound isField
      rw [Body.readLe, slices start width (by omega), isField, ofLe_toLe_of_lt bound]
    have version := field 8 4 formatVersion (by omega) (by decide) (by simp [record, magic, toLe])
    have size := field 12 4 pageSize (by omega) (by decide) (by simp [record, magic, toLe])
    have pages := field 16 4 _ (by omega) content.pageCount.isLt (by simp [record, magic, toLe])
    have free := field 20 4 _ (by omega) content.freeListHead.isLt (by simp [record, magic, toLe])
    have txn := field 24 8 _ (by omega) content.nextTxnId.isLt (by simp [record, magic, toLe])
    have root := field 32 4 _ (by omega) content.catalogRoot.isLt (by simp [record, magic, toLe])
    have segments := field 36 4 _ (by omega) count (by simp [record, magic, toLe])
    have directory : ∀ index, index < content.clogPages.length →
        Body.readLe ((Page.new .metadata).writeBody 0 content.record).body
          (metaClogBase + index * 4) 4 = (content.clogPages.getD index 0).val := by
      intro index inside
      have fixed : content.record.drop (metaClogBase + index * 4) =
          (content.clogPages.flatMap fun id => toLe 4 id.val).drop (index * 4) := by
        rw [← List.drop_drop]
        simp [record, magic, metaClogBase, toLe]
      rw [Body.readLe, slices _ 4 (by rw [metaClogBase]; omega), fixed, directory_entry _ _ inside,
        ofLe_toLe_of_lt (Fin.isLt _)]
      simp [inside]
    have restored : (List.range content.clogPages.length).map (fun index =>
        Fin.ofNat (2 ^ 32) (Body.readLe ((Page.new .metadata).writeBody 0 content.record).body
          (metaClogBase + index * 4) 4)) = content.clogPages := by
      refine List.ext_getElem (by simp) fun index inRange inside => ?_
      rw [List.getElem_map, List.getElem_range, directory index inside]
      simp [inside]
    rw [decode]
    simp only [isMagic, version, size, pages, free, txn, root, segments, restored, ne_eq,
      not_true_eq_false, if_false, if_neg fits, Fin.ofNat_val_eq_self]

end Meta
end Ferrite.Storage
