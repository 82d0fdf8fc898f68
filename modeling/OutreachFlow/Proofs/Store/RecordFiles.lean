import OutreachFlow.Proofs.Store.Listing

/-! What listing reads: files right in the directory that have the name of a record and a document in them. Their
documents are listed by time, and those of one time by name. Everything else could as well not be there, unless it
is nested too deep to tell, in which case nothing is listed. -/
namespace OutreachFlow

/-- Two lists in a strict order are the same if they have the same items. -/
theorem eq_of_strict_order {α : Type} {before : α → α → Prop} (asymm : ∀ a b, before a b → ¬ before b a)
    {items others : List α} (ordered : items.Pairwise before) (ordered' : others.Pairwise before)
    (same : ∀ item, item ∈ items ↔ item ∈ others) : items = others := by
  have apart : ∀ {a b : α}, before a b → a ≠ b := by
    rintro a b less rfl
    exact asymm a a less less
  have perm : items.Perm others :=
    (List.perm_ext_iff_of_nodup (ordered.imp apart) (ordered'.imp apart)).mpr same
  exact perm.eq_of_pairwise (fun a b _ _ less more => absurd more (asymm a b less)) ordered ordered'

/-! Documents by name -/

namespace Directory

variable {limit : Nat} {directory other : Directory} {name : String} {value : Json}

/-- The document in the record file of some name. -/
def document? (limit : Nat) (directory : Directory) (name : String) : Option Json :=
  if Store.isRecordName name then
    (directory.item? (.named name)).bind fun item => (Store.readItem limit item).toOption
  else none

/-- An item that is no file right in the directory with the name of a record and a document in it: it lies elsewhere or
has another name, it is a folder, it cannot be opened, or it holds no text or text that is no document. What is nested
too deep to tell does not count. -/
def PassedOver (limit : Nat) (entry : Location × DirectoryItem) : Prop :=
  ∀ name, entry.1 = .named name → Store.isRecordName name = true →
    ∃ fault, Store.readItem limit entry.2 = .error fault ∧ fault.kind ≠ .recursion

/-- Two directories that differ in what is passed over only, however much of it there is. -/
def SameRecords (limit : Nat) (directory other : Directory) : Prop :=
  ∀ entry, ¬ PassedOver limit entry → (entry ∈ directory.items ↔ entry ∈ other.items)

theorem SameRecords.trans {third : Directory} (first : directory.SameRecords limit other)
    (second : other.SameRecords limit third) : directory.SameRecords limit third := fun entry counts =>
  (first entry counts).trans (second entry counts)

end Directory

/-! Record files -/

/-- The name of a record file and the record in it. Its time is a text, if it has one. -/
@[ext]
structure RecordFile where
  name : String
  record : Fields
  timed : ∀ time, record.get? "createdAt" = some time → ∃ text, time = .str text

namespace RecordFile

/-- The time by which the record is listed. -/
def time (file : RecordFile) : String := ((file.record.get? "createdAt").bind Json.asString?).getD ""

/-- By time, and files of one time by name. -/
def Before (file other : RecordFile) : Prop :=
  file.time < other.time ∨ file.time = other.time ∧ file.name < other.name

instance : DecidableRel Before := fun file other =>
  inferInstanceAs (Decidable (file.time < other.time ∨ file.time = other.time ∧ file.name < other.name))

theorem Before.asymm (file other : RecordFile) (before : file.Before other) : ¬ other.Before file := by
  rcases before with less | ⟨same, less⟩ <;> rintro (more | ⟨_, more⟩)
  · exact lt_asymm less more
  · simp_all
  · simp_all
  · exact lt_asymm less more

end RecordFile

namespace Directory

variable {limit : Nat} {directory : Directory}

/-- The files are those of all documents that are read. -/
def HasRecordFiles (limit : Nat) (directory : Directory) (files : List RecordFile) : Prop :=
  ∀ name value, directory.document? limit name = some value ↔
    ∃ file ∈ files, file.name = name ∧ value = .obj file.record

theorem HasRecordFiles.mem_iff {files : List RecordFile} (has : directory.HasRecordFiles limit files)
    (file : RecordFile) : file ∈ files ↔ directory.document? limit file.name = some (.obj file.record) := by
  rw [has]
  constructor
  · exact fun member => ⟨file, member, rfl, rfl⟩
  · rintro ⟨other, member, name, record⟩
    exact RecordFile.ext name (Json.obj.inj record).symm ▸ member

/-- Record files are settled by the directory and their order. -/
theorem HasRecordFiles.unique {files others : List RecordFile} (has : directory.HasRecordFiles limit files)
    (has' : directory.HasRecordFiles limit others) (ordered : files.Pairwise RecordFile.Before)
    (ordered' : others.Pairwise RecordFile.Before) : files = others := by
  refine eq_of_strict_order RecordFile.Before.asymm ordered ordered' fun file => ?_
  rw [has.mem_iff, has'.mem_iff]

end Directory

namespace Store

variable {store other : Store}

/-! Reading one name after the other -/

/-- Something is found under a name that listing does not pass over. -/
def counts (store : Store) (name : String) : Bool :=
  match store.readNamed name with
  | .ok _ => true
  | .error fault => !passesOver fault.kind

end Store

end OutreachFlow
