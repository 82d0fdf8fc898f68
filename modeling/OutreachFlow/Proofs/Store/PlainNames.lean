import OutreachFlow.Proofs.Graph.Grouping
import OutreachFlow.Store.Basic

/-! Ids that are plain names. The file of such an id lies right in the directory, under a name from
which the id can be told, so that reading and writing it touch that one place. -/
namespace OutreachFlow

theorem Location.name?_eq_some {place : Location} {name : String} :
    place.name? = some name ↔ place = .named name := by
  unfold name? named
  split
  · simp
  · rename_i other
    simp only [reduceCtorEq, false_iff]
    rintro rfl
    exact other name rfl

/-! What lies in a directory -/

namespace Directory

variable {directory : Directory} {place : Location} {item : DirectoryItem} {name : String}

theorem item?_eq_some (below : place.names ≠ []) :
    directory.item? place = some item ↔ (place, item) ∈ directory.items := by
  rw [item?, if_neg below, Option.map_eq_some_iff]
  simp only [find?_key_eq_some directory.distinct]
  constructor
  · rintro ⟨⟨_, _⟩, ⟨member, rfl⟩, rfl⟩
    exact member
  · exact fun member => ⟨_, ⟨member, rfl⟩, rfl⟩

theorem item?_named :
    directory.item? (.named name) = some item ↔ (.named name, item) ∈ directory.items :=
  item?_eq_some (List.cons_ne_nil _ _)

theorem mem_names :
    name ∈ directory.names ↔ ∃ item, directory.item? (.named name) = some item := by
  rw [names, (List.mergeSort_perm _ _).mem_iff]
  simp only [List.mem_filterMap, Location.name?_eq_some, Prod.exists]
  constructor
  · rintro ⟨_, item, member, rfl⟩
    exact ⟨item, item?_named.mpr member⟩
  · rintro ⟨item, found⟩
    exact ⟨_, item, item?_named.mp found, rfl⟩

theorem names_nodup (directory : Directory) : directory.names.Nodup := by
  rw [names, (List.mergeSort_perm _ _).nodup_iff]
  have apart : (directory.items.filterMap fun item => item.1.name?) =
      (directory.items.map Prod.fst).filterMap Location.name? := by
    rw [List.filterMap_map]
    rfl
  rw [apart]
  refine directory.distinct.filterMap fun first second name found found' => ?_
  rw [Location.name?_eq_some.mp found, Location.name?_eq_some.mp found']

theorem names_sorted (directory : Directory) : directory.names.Pairwise (· ≤ ·) := by
  have trans : ∀ a b c : String, decide (a ≤ b) → decide (b ≤ c) → decide (a ≤ c) := by
    simpa using fun a b c => String.le_trans
  have total : ∀ a b : String, decide (a ≤ b) || decide (b ≤ a) := by
    simpa using String.le_total
  simpa [names] using List.pairwise_mergeSort trans total
    (directory.items.filterMap fun item => item.1.name?)

end Directory

/-! Plain names -/

namespace Store

variable {id other : String}

/-- An id whose file lies right in the directory: without a slash or a null character, and no longer
than names of files may be. -/
structure IsPlain (id : String) : Prop where
  noSlash : '/' ∉ id.toList
  noNull : '\x00' ∉ id.toList
  short : (path id).utf8ByteSize ≤ Path.maxNameBytes

instance (id : String) : Decidable (IsPlain id) :=
  decidable_of_iff ('/' ∉ id.toList ∧ '\x00' ∉ id.toList ∧ (path id).utf8ByteSize ≤ Path.maxNameBytes)
    ⟨fun ⟨noSlash, noNull, short⟩ => ⟨noSlash, noNull, short⟩,
      fun ⟨noSlash, noNull, short⟩ => ⟨noSlash, noNull, short⟩⟩

theorem toList_path (id : String) : (path id).toList = id.toList ++ ['.', 'j', 's', 'o', 'n'] := by
  rw [path, String.toList_append]
  rfl

theorem path_inj : path id = path other ↔ id = other := by
  rw [path, path, String.append_left_inj]

theorem named_path_inj : Location.named (path id) = .named (path other) ↔ id = other := by
  rw [← @path_inj id other]
  simp [Location.named]

theorem isRecordName_path (id : String) : isRecordName (path id) = true := by
  rw [isRecordName, List.isSuffixOf_iff_suffix, toList_path]
  exact List.suffix_append _ _

theorem pieces_of_notMem {separator : Char} {text : List Char} (free : separator ∉ text) :
    Text.pieces separator text = [text] := by
  induction text with
  | nil => rfl
  | cons c rest ih =>
    rw [List.mem_cons, not_or] at free
    rw [Text.pieces, if_neg (Ne.symm free.1), ih free.2]

theorem steps_path (plain : IsPlain id) : Path.steps (path id) = [path id] := by
  have free : '/' ∉ (path id).toList := by
    rw [toList_path, List.mem_append, not_or]
    exact ⟨plain.noSlash, by decide⟩
  have long : 2 ≤ (path id).toList.length := by simp [toList_path]
  have named : path id ≠ "" ∧ path id ≠ "." := by
    constructor <;> intro same <;> rw [same] at long <;> simp at long
  rw [Path.steps, pieces_of_notMem free]
  simp [named]

/-- A plain id leads to the place of that name, whatever else is in the directory. -/
theorem locate_path (plain : IsPlain id) (directory : Directory) :
    directory.locate (path id) = .ok (.named (path id)) := by
  have noNull : '\x00' ∉ (path id).toList := by
    rw [toList_path, List.mem_append, not_or]
    exact ⟨plain.noNull, by decide⟩
  have start : Path.start (path id) = .here := by
    rw [Path.start, if_neg]
    intro first
    have member := List.mem_of_head? first
    rw [toList_path, List.mem_append] at member
    rcases member with own | own
    · exact plain.noSlash own
    · simp at own
  have down : path id ≠ ".." := by
    intro same
    have long : 5 ≤ (path id).toList.length := by simp [toList_path]
    rw [same] at long
    simp at long
  have short : ¬ Path.maxNameBytes < (path id).utf8ByteSize := Nat.not_lt.mpr plain.short
  rw [Directory.locate, if_neg (by simpa using noNull), start, steps_path plain]
  simp [Directory.walk, Directory.item?, Location.here, down, short, Location.child, Location.named]

/-- Ids that are a plain name each. -/
def plainIds : Supply := ⟨fun count => if count = 0 then "welcome" else "reminder", 0⟩

theorem isPlain_plainIds (count : Nat) : IsPlain (plainIds.text count) := by
  simp only [plainIds]
  split <;> decide

end Store

end OutreachFlow
