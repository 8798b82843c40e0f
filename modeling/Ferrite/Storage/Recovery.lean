import Ferrite.Storage.Disk
import Mathlib.Data.List.Induction

/-!
# What recovery reads

Replaying the journal over the data file gives each page its last journalled image,
or else what the file holds. `Disk.durable` is that reading, page by page; the
lemmas say what each file operation does to it.
-/

namespace Ferrite.Storage

/-- The last image of a page among some records. -/
def lastImage (records : List Record) (id : PageId) : Option Image := records.foldl (fun found record =>
    match record with
    | .pageImage other image => if other = id then some image else found
    | _ => found) none

@[simp] theorem lastImage_nil (id : PageId) : lastImage [] id = none := rfl

@[simp] theorem lastImage_append_image (records : List Record) (id other : PageId) (image : Image) :
    lastImage (records ++ [.pageImage other image]) id =
      if other = id then some image else lastImage records id := by
  simp [lastImage, List.foldl_append]

/-- Records that are no page images say nothing about pages. -/
def Record.isImage : Record → Bool
  | .pageImage _ _ => true
  | _ => false

private theorem lastImage_append_other (records : List Record) (id : PageId) {record : Record}
    (other : record.isImage = false) : lastImage (records ++ [record]) id = lastImage records id := by
  cases record <;> simp_all [lastImage, List.foldl_append, Record.isImage]

private theorem pages_foldl_applyRecord (records : List Record) (file : DataFile) (id : PageId) :
    (records.foldl applyRecord file).pages id = (lastImage records id).or (file.pages id) := by
  induction records using List.reverseRecOn with
  | nil => simp
  | append_singleton records record ih =>
    rw [List.foldl_append, List.foldl_cons, List.foldl_nil]
    cases record with
    | pageImage other image =>
      rw [applyRecord, DataFile.pages_write, lastImage_append_image, ih]
      by_cases same : other = id
      · simp [same]
      · simp [same, Ne.symm same]
    | commit txn => rw [lastImage_append_other records id rfl, ← ih]; rfl
    | abort txn => rw [lastImage_append_other records id rfl, ← ih]; rfl
    | checkpoint => rw [lastImage_append_other records id rfl, ← ih]; rfl

private theorem length_le_foldl_applyRecord (records : List Record) (file : DataFile) :
    file.length ≤ (records.foldl applyRecord file).length := by
  induction records generalizing file with
  | nil => exact le_refl _
  | cons record rest ih =>
    refine le_trans ?_ (ih _)
    cases record with
    | pageImage id image => exact le_max_left _ _
    | commit txn => exact le_refl _
    | abort txn => exact le_refl _
    | checkpoint => exact le_refl _

namespace Disk

theorem length_le_recover (disk : Disk) : disk.file.length ≤ disk.recover.length := length_le_foldl_applyRecord _ _

/-- The journal was never cut. -/
def Whole (disk : Disk) (records : List Record) : Prop := disk.journal = records.map .whole

/-- The image of a page after recovery. -/
def durable (disk : Disk) (id : PageId) : Option Image := disk.recover.pages id

variable {disk : Disk} {records : List Record}

theorem durable_eq (whole : disk.Whole records) (id : PageId) :
    disk.durable id = (lastImage records id).or (disk.file.pages id) := by
  rw [durable, recover, whole, intactRecords_map_whole, pages_foldl_applyRecord]

theorem Whole.append (whole : disk.Whole records) (record : Record) :
    (disk.apply (.appended record)).Whole (records ++ [record]) := by
  simp only [Whole, apply] at whole ⊢
  simp [whole]

private theorem Whole.written (whole : disk.Whole records) (id : PageId) (image : Option Image) :
    (disk.apply (.written id image)).Whole records := whole

theorem durable_append_image (whole : disk.Whole records) (id other : PageId) (image : Image) :
    (disk.apply (.appended (.pageImage other image))).durable id =
      if id = other then some image else disk.durable id := by
  rw [durable_eq (whole.append _), durable_eq whole, lastImage_append_image]
  by_cases same : other = id
  · simp [same]
  · rw [if_neg same, if_neg (Ne.symm same)]
    rfl

theorem durable_append_other (whole : disk.Whole records) {record : Record}
    (other : record.isImage = false) (id : PageId) : (disk.apply (.appended record)).durable id = disk.durable id := by
  rw [durable_eq (whole.append _), durable_eq whole, lastImage_append_other records id other]
  rfl

/-- Writing into the data file shows only where the journal has no image. -/
theorem durable_write (whole : disk.Whole records) (id other : PageId) (image : Image) :
    (disk.apply (.written other (some image))).durable id =
      if id = other then (lastImage records id).or (some image) else disk.durable id := by
  rw [durable_eq (whole.written other _), durable_eq whole]
  simp only [apply, DataFile.pages_write]
  split <;> rfl

theorem durable_write_same (whole : disk.Whole records) {other : PageId} {image : Image} {old : Image}
    (same : disk.durable other = some old) (equal : old.page = image.page) (id : PageId) :
    ((disk.apply (.written other (some image))).durable id).map Image.page = (disk.durable id).map Image.page := by
  rw [durable_write whole]
  split
  · rename_i here
    subst here
    rw [same]
    rw [durable_eq whole] at same
    cases last : lastImage records id with
    | none => simp [equal]
    | some found =>
      rw [last, Option.some_or] at same
      rw [Option.some_or, Option.some.inj same]
  · rfl

end Disk
end Ferrite.Storage
