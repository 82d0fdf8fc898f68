import OutreachFlow.Proofs.Import.Reading
import OutreachFlow.Proofs.Json.Fields
import OutreachFlow.Proofs.Store.Ledger

/-! Stores that hold a ledger: the files of its flows lie in the directory, each under the name of its
id, and nothing else does. Reading finds what the ledger has, and writing and removing change both alike. -/
namespace OutreachFlow

namespace Store

variable {store : Store} {ledger : Ledger} {id : String} {flow : SavedFlow}

/-- The directory holds the records of the ledger and nothing else. -/
structure Holds (store : Store) (ledger : Ledger) : Prop where
  ids : store.ids = ledger.ids
  clock : store.clock = ledger.clock
  files : ∀ id, store.directory.item? (.named (path id)) =
    (ledger.flows.lookup id).map fun flow => .file (flow.record id).pretty
  only : ∀ entry ∈ store.directory.items, ∃ id, entry.1 = .named (path id)
  readable : ∀ id, ∀ flow ∈ ledger.flows.lookup id, ReadsBack store.limits (flow.record id)

theorem holds_empty (ids clock : Supply) (limits : Limits) :
    Holds ⟨.empty, ids, clock, limits⟩ ⟨∅, ids, clock⟩ where
  ids := rfl
  clock := rfl
  files id := by
    rw [Finmap.lookup_empty]
    rfl
  only := by simp [Directory.empty]
  readable := by simp

/-! Reading -/

/-- A document is read from a text file only. -/
theorem readItem_eq_ok {limit : Nat} {item : DirectoryItem} {value : Json} :
    readItem limit item = .ok value ↔ ∃ text, item = .file text ∧ readText limit text = .ok value := by
  cases item <;> simp [readItem, DirectoryItem.text, mapError_eq_ok]

theorem file?_of_holds (holds : store.Holds ledger) (plain : IsPlain id) :
    store.file? id = .ok ((ledger.flows.lookup id).map fun flow =>
      (.named (path id), .file (flow.record id).pretty)) := by
  rw [file?, Directory.find?, locate_path plain]
  simp only [holds.files id]
  cases ledger.flows.lookup id <;> rfl

theorem get?_of_holds (holds : store.Holds ledger) (plain : IsPlain id) :
    store.get? id = .ok ((ledger.flows.lookup id).map fun flow => flow.record id) := by
  rw [get?, file?_of_holds holds plain]
  cases found : ledger.flows.lookup id with
  | none => rfl
  | some flow =>
    have read : readText store.limits.reading (flow.record id).pretty = .ok (flow.record id) :=
      (holds.readable id flow found).2
    simp only [Option.map_some, bind, Except.bind, document?, readItem, DirectoryItem.text, read, Except.mapError]
    rfl

/-! Writing -/

/-- Writing under a plain id puts its file in place of what was there. -/
theorem write_of_holds (holds : store.Holds ledger) (plain : IsPlain id) {value : Json}
    (flat : value.depth ≤ store.limits.writing) :
    store.write id value = .ok { store with
      directory := store.directory.put (.named (path id)) (.file value.pretty) } := by
  have writes : store.directory.write (path id) value.pretty =
      .ok (store.directory.put (.named (path id)) (.file value.pretty)) := by
    rw [Directory.write, locate_path plain]
    simp only [holds.files id]
    cases ledger.flows.lookup id <;> rfl
  rw [write, if_neg (Nat.not_lt.mpr flat), writes]

theorem holds_insert (holds : store.Holds ledger) (reads : ReadsBack store.limits (flow.record id)) :
    Holds { store with
        directory := store.directory.put (.named (path id)) (.file (flow.record id).pretty) }
      { ledger with flows := ledger.flows.insert id flow } where
  ids := holds.ids
  clock := holds.clock
  files other := by
    rw [Directory.item?_put _ _ _ _ (List.cons_ne_nil _ _)]
    by_cases same : other = id
    · rw [same, if_pos rfl, Finmap.lookup_insert]
      rfl
    · rw [if_neg (mt named_path_inj.mp same), Finmap.lookup_insert_of_ne _ same, holds.files other]
  only := by
    rintro entry (_ | ⟨_, member⟩)
    · exact ⟨id, rfl⟩
    · exact holds.only entry (List.mem_filter.mp member).1
  readable other found member := by
    by_cases same : other = id
    · subst same
      rw [Finmap.lookup_insert] at member
      exact Option.some.inj member ▸ reads
    · rw [Finmap.lookup_insert_of_ne _ same] at member
      exact holds.readable other found member

theorem holds_erase (holds : store.Holds ledger) (id : String) :
    Holds { store with directory := store.directory.remove (.named (path id)) }
      { ledger with flows := ledger.flows.erase id } where
  ids := holds.ids
  clock := holds.clock
  files other := by
    rw [Directory.item?_remove _ _ _ (List.cons_ne_nil _ _)]
    by_cases same : other = id
    · rw [same, if_pos rfl, Finmap.lookup_erase]
      rfl
    · rw [if_neg (mt named_path_inj.mp same), Finmap.lookup_erase_ne same, holds.files other]
  only entry member := holds.only entry (List.mem_filter.mp member).1
  readable other found member := by
    by_cases same : other = id
    · subst same
      rw [Finmap.lookup_erase] at member
      contradiction
    · rw [Finmap.lookup_erase_ne same] at member
      exact holds.readable other found member

end Store

end OutreachFlow
