import OutreachFlow.Proofs.Service.Records

/-! Flows that are kept: each has a name and lies under an id that is a plain name, and nothing happens to its record
on the way into a file, out of it again and back to a sender. -/
namespace OutreachFlow

open Service

/-- A saved flow with a name, under a plain id, with a record of no more than `level + 4` levels. -/
structure KeptFlow (level : Nat) where
  flow : SavedFlow
  id : String
  name : String
  plain : Store.IsPlain id
  sound : flow.IsSound
  named : flow.name = .str name
  proper : (flow.record id).IsProper (level + 4)

namespace KeptFlow

variable {level : Nat}

def record (kept : KeptFlow level) : Json := kept.flow.record kept.id

/-- The item of a directory that keeps the flow. -/
def item (kept : KeptFlow level) : Location × DirectoryItem :=
  (.named (Store.path kept.id), .file kept.record.pretty)

theorem readItem (kept : KeptFlow level) {limit : Nat} (roomy : level + 4 ≤ limit) :
    Store.readItem limit kept.item.2 = .ok kept.record :=
  Store.readItem_eq_ok.mpr ⟨_, rfl, kept.sound.readText (Nat.le_trans kept.proper.flat roomy)⟩

/-- A kept flow is answered with its record. -/
theorem deliver_answerRecord (kept : KeptFlow level) {framework : Framework} (roomy : level + 4 ≤ framework.answerDepth)
    (status : Nat) : (framework.deliver (answerRecord status kept.record)).status = status := by
  obtain ⟨record, answered, proper⟩ := kept.sound.exists_record kept.named kept.proper
  have replied : answerRecord status kept.record = .modelled status record.toJson := by
    rw [answerRecord, KeptFlow.record, answered]
  exact replied ▸ congrArg Response.status
    (deliver_document .modelled status (Nat.le_trans proper.flat roomy) proper.finite proper.whole)

end KeptFlow

namespace Directory

variable {level : Nat} {directory after : Directory}

/-- Nothing but kept flows lies in the directory. -/
def KeepsFlows (level : Nat) (directory : Directory) : Prop :=
  ∀ entry ∈ directory.items, ∃ kept : KeptFlow level, entry = kept.item

theorem keepsFlows_empty : KeepsFlows level .empty := by simp [KeepsFlows, empty]

theorem KeepsFlows.exists_list (keeps : directory.KeepsFlows level) :
    ∃ kepts : List (KeptFlow level), directory.items = kepts.map KeptFlow.item := by
  have listed : directory.items ∈ Set.range (List.map (@KeptFlow.item level)) := by
    rw [Set.range_list_map]
    intro entry member
    obtain ⟨kept, same⟩ := keeps entry member
    exact ⟨kept, same.symm⟩
  obtain ⟨kepts, same⟩ := listed
  exact ⟨kepts, same.symm⟩

theorem KeepsFlows.isFile (keeps : directory.KeepsFlows level) {name : String} {item : DirectoryItem}
    (found : directory.item? (.named name) = some item) : ∃ text, item = .file text := by
  obtain ⟨kept, same⟩ := keeps _ ((item?_eq_some (List.cons_ne_nil _ _)).mp found)
  exact ⟨_, (Prod.mk.inj same).2⟩

theorem item?_item {kepts : List (KeptFlow level)} (same : directory.items = kepts.map KeptFlow.item)
    {kept : KeptFlow level} (member : kept ∈ kepts) :
    directory.item? (.named (Store.path kept.id)) = some kept.item.2 :=
  (item?_eq_some (List.cons_ne_nil _ _)).mpr (same ▸ List.mem_map_of_mem member)

/-- A kept flow is written in the place of its id, whatever was kept there. -/
theorem KeepsFlows.write (keeps : directory.KeepsFlows level) (kept : KeptFlow level) :
    ∃ after, directory.write (Store.path kept.id) kept.record.pretty = .ok after ∧ after.KeepsFlows level := by
  refine ⟨directory.put (.named (Store.path kept.id)) (.file kept.record.pretty), ?_, ?_⟩
  · refine write_eq_ok.mpr ⟨_, Store.locate_path kept.plain directory, ?_, ?_, rfl⟩ <;>
      · intro other
        obtain ⟨text, file⟩ := keeps.isFile other
        contradiction
  · rintro entry (_ | ⟨_, member⟩)
    · exact ⟨kept, rfl⟩
    · exact keeps entry (List.mem_filter.mp member).1

theorem KeepsFlows.remove (keeps : directory.KeepsFlows level) (place : Location) :
    (directory.remove place).KeepsFlows level := fun entry member => keeps entry (List.mem_filter.mp member).1

end Directory

namespace Store

variable {level : Nat} {store : Store} {id : String}

/-- A name is looked up without a fault, unless it is too long. -/
theorem file?_eq_ok (short : store.directory.locate (path id) ≠ .error .nameTooLong) :
    ∃ file, store.file? id = .ok file := by
  rw [file?, Directory.find?]
  split
  · exact ⟨_, rfl⟩
  · contradiction
  · exact ⟨none, rfl⟩

theorem get?_eq_ok (keeps : store.directory.KeepsFlows level) (roomy : level + 4 ≤ store.limits.reading)
    (short : store.directory.locate (path id) ≠ .error .nameTooLong) :
    store.get? id = .ok none ∨ ∃ kept : KeptFlow level, store.get? id = .ok (some kept.record) := by
  obtain ⟨file, found⟩ := file?_eq_ok short
  rw [get?, found]
  cases file with
  | none => exact .inl rfl
  | some file =>
    obtain ⟨place, item⟩ := file
    obtain ⟨kept, same⟩ := keeps _ (Directory.mem_of_file? found)
    obtain ⟨rfl, rfl⟩ := Prod.mk.inj same
    have read : readItem store.limits.reading (.file kept.record.pretty) = .ok kept.record := kept.readItem roomy
    refine .inr ⟨kept, ?_⟩
    simp only [bind, Except.bind, document?, read]
    rfl

/-- Whatever is found is a kept flow. -/
theorem exists_kept_of_get? (keeps : store.directory.KeepsFlows level) (roomy : level + 4 ≤ store.limits.reading)
    {value : Json} (found : store.get? id = .ok (some value)) : ∃ kept : KeptFlow level, value = kept.record := by
  obtain ⟨file, there, _⟩ := bind_eq_ok.mp found
  have short : store.directory.locate (path id) ≠ .error .nameTooLong := by
    intro long
    rw [file?, Directory.find?, long] at there
    contradiction
  rcases get?_eq_ok keeps roomy short with nothing | ⟨kept, same⟩
  · rw [nothing] at found
    exact absurd (Except.ok.inj found) (by simp)
  · exact ⟨kept, Option.some.inj (Except.ok.inj (found.symm.trans same))⟩

theorem names_of_items {kepts : List (KeptFlow level)} (same : store.directory.items = kepts.map KeptFlow.item) :
    store.directory.names =
      (kepts.mergeSort fun a b => path a.id ≤ path b.id).map fun kept => path kept.id := by
  have named : (store.directory.items.filterMap fun item => item.1.name?) = kepts.map fun kept => path kept.id := by
    rw [same, List.filterMap_map, ← List.filterMap_eq_map]
    rfl
  have moved := List.map_mergeSort (r := fun a b : KeptFlow level => decide (path a.id ≤ path b.id))
    (s := fun a b : String => decide (a ≤ b)) (f := fun kept => path kept.id) (l := kepts) fun _ _ _ _ => rfl
  rw [Directory.names, named]
  exact moved.symm

/-- All kept flows are listed. -/
theorem list_of_items (roomy : level + 4 ≤ store.limits.reading) {kepts : List (KeptFlow level)}
    (same : store.directory.items = kepts.map KeptFlow.item) :
    ∃ order : List (KeptFlow level), order.Perm kepts ∧ store.list = .ok (order.map KeptFlow.record) := by
  have reads : ∀ kept ∈ kepts.mergeSort fun a b => path a.id ≤ path b.id,
      store.readNamed (path kept.id) = .ok kept.record := by
    intro kept member
    rw [readNamed, Directory.item?_item same ((List.mergeSort_perm _ _).mem_iff.mp member)]
    exact kept.readItem roomy
  have records : store.directory.names.filter isRecordName = store.directory.names := by
    simp [names_of_items same, List.filter_eq_self, isRecordName_path]
  have documents : store.documents =
      .ok ((kepts.mergeSort fun a b => path a.id ≤ path b.id).map KeptFlow.record) := by
    rw [Store.documents, records, names_of_items same]
    exact documentsOf_of_reads reads
  have times (kept : KeptFlow level) : createdAt kept.record = .ok (.str kept.flow.createdAt) := by
    simp [createdAt, KeptFlow.record, SavedFlow.record, SavedFlow.fields]
  exact ⟨_, (List.mergeSort_perm _ _).trans (List.mergeSort_perm _ _), list_of_documents documents times⟩

end Store

end OutreachFlow
