import Mathlib.Data.Set.List
import OutreachFlow.Proofs.Store.Holding

/-! Listing what a store holds. Files are read in the order of their names and then sorted by time, and
since sorting is stable, the records come in the order of their ledger. -/
namespace OutreachFlow

/-- A stable sort of what is ordered by something else keeps that order among equals. -/
theorem pairwise_mergeSort_stable {α : Type} {before : α → α → Bool} {order : α → α → Prop}
    (trans : ∀ a b c, before a b → before b c → before a c)
    (total : ∀ a b, before a b || before b a) {items : List α} (ordered : items.Pairwise order) :
    (items.mergeSort before).Pairwise fun a b => before a b ∧ (before b a → order a b) := by
  induction items with
  | nil => simp
  | cons item rest ih =>
    obtain ⟨behind, ordered⟩ := List.pairwise_cons.mp ordered
    -- The item comes behind those of the rest that come strictly before it.
    obtain ⟨front, back, whole, others, strict⟩ := List.mergeSort_cons trans total item rest
    have sorted := List.pairwise_mergeSort trans total (item :: rest)
    have parts := ih ordered
    rw [others] at parts
    rw [whole] at sorted ⊢
    rw [List.pairwise_append, List.pairwise_cons] at sorted ⊢
    rw [List.pairwise_append] at parts
    have known : ∀ other ∈ back, other ∈ rest := by
      intro other member
      rw [← (List.mergeSort_perm rest before).mem_iff, others]
      exact List.mem_append_right _ member
    refine ⟨parts.1, ⟨?_, parts.2.1⟩, ?_⟩
    · intro other member
      exact ⟨sorted.2.1.1 other member, fun _ => behind other (known other member)⟩
    · intro first inside second member
      rcases List.mem_cons.mp member with rfl | later
      · have above : before second first = false := by simpa using strict first inside
        exact ⟨sorted.2.2 first inside second List.mem_cons_self, fun below => by simp [above] at below⟩
      · exact parts.2.2 first inside second later

namespace Ledger

/-- A flow of a ledger, with its id. -/
structure Entry (ledger : Ledger) where
  id : String
  flow : SavedFlow
  found : ledger.flows.lookup id = some flow

namespace Entry

variable {ledger : Ledger}

def record (entry : ledger.Entry) : Json := entry.flow.record entry.id

theorem rank_eq (entry : ledger.Entry) :
    ledger.rank entry.id = toLex (entry.flow.createdAt, Store.path entry.id) := by
  rw [rank, entry.found]
  rfl

end Entry

end Ledger

namespace Store

variable {store : Store} {ledger : Ledger}

/-- The names in the directory are those of the files of all flows. -/
theorem exists_entries (holds : store.Holds ledger) :
    ∃ entries : List ledger.Entry, store.directory.names = entries.map (path ·.id) ∧
      ∀ id, id ∈ entries.map Ledger.Entry.id ↔ id ∈ ledger.flows := by
  have lies : ∀ name ∈ store.directory.names, ∃ entry : ledger.Entry, path entry.id = name := by
    intro name member
    obtain ⟨item, found⟩ := Directory.mem_names.mp member
    obtain ⟨id, place⟩ := holds.only _ (Directory.item?_named.mp found)
    obtain rfl : name = path id := by simpa [Location.named] using place
    rw [holds.files id, Option.map_eq_some_iff] at found
    obtain ⟨flow, found, _⟩ := found
    exact ⟨⟨id, flow, found⟩, rfl⟩
  have listed : store.directory.names ∈ Set.range (List.map fun entry : ledger.Entry => path entry.id) := by
    rw [Set.range_list_map]
    exact lies
  obtain ⟨entries, same⟩ := listed
  refine ⟨entries, same.symm, fun id => ?_⟩
  have named : id ∈ entries.map Ledger.Entry.id ↔ path id ∈ store.directory.names := by
    simp only [← same, List.mem_map, path_inj]
  rw [named, Directory.mem_names, holds.files id, Finmap.mem_iff]
  simp

/-- Files are read one by one, in the order of their names. -/
theorem documentsOf_of_reads {α : Type} {name : α → String} {record : α → Json} {items : List α}
    (reads : ∀ item ∈ items, store.readNamed (name item) = .ok (record item)) :
    store.documentsOf (items.map name) = .ok (items.map record) := by
  induction items with
  | nil => rfl
  | cons item rest ih =>
    obtain ⟨first, others⟩ := List.forall_mem_cons.mp reads
    rw [List.map_cons, documentsOf, first, ih others]
    rfl

/-- Records whose times are texts can be sorted by them. -/
theorem sortByTime_texts {α : Type} (time : α → String) (record : α → Json) (items : List α) :
    sortByTime (items.map fun item => (.str (time item), record item)) =
      .ok ((items.mergeSort fun a b => time a ≤ time b).map record) := by
  have times : textTimes? (items.map fun item => (.str (time item), record item)) =
      some (items.map fun item => (time item, record item)) := by
    rw [textTimes?, List.mapM_map]
    exact List.mapM_pure
  have moved := List.map_mergeSort (r := fun a b : α => decide (time a ≤ time b))
    (s := fun a b : String × Json => decide (a.1 ≤ b.1)) (f := fun item => (time item, record item))
    (l := items) fun _ _ _ _ => rfl
  rw [sortByTime, times]
  simp only [← moved, List.map_map]
  rfl

/-- What is listed is sorted by time. -/
theorem list_of_documents {α : Type} {time : α → String} {record : α → Json} {items : List α}
    (read : store.documents = .ok (items.map record))
    (times : ∀ item, createdAt (record item) = .ok (.str (time item))) :
    store.list = .ok ((items.mergeSort fun a b => time a ≤ time b).map record) := by
  have timed : (items.map record).mapM (fun record => (createdAt record).map (·, record)) =
      .ok (items.map fun item => (Json.str (time item), record item)) := by
    have each : (fun record => (createdAt record).map (·, record)) ∘ record =
        fun item => .ok (Json.str (time item), record item) := by
      funext item
      rw [Function.comp_apply, times]
      rfl
    rw [List.mapM_map, each]
    exact List.mapM_pure
  rw [list, read]
  simp only [bind, Except.bind, timed]
  exact sortByTime_texts time record items

/-- Sorted by time, the files are in the order of the ledger: those of one time stay in the order of
their names. -/
theorem sorted_entries {entries : List ledger.Entry}
    (named : store.directory.names = entries.map (path ·.id))
    (all : ∀ id, id ∈ entries.map Ledger.Entry.id ↔ id ∈ ledger.flows) :
    (entries.mergeSort fun a b => a.flow.createdAt ≤ b.flow.createdAt).map Ledger.Entry.id =
      ledger.flows.keys.sort ledger.Precedes := by
  have byName : entries.Pairwise fun a b => path a.id ≤ path b.id := by
    rw [← List.pairwise_map, ← named]
    exact store.directory.names_sorted
  have trans : ∀ a b c : ledger.Entry, decide (a.flow.createdAt ≤ b.flow.createdAt) →
      decide (b.flow.createdAt ≤ c.flow.createdAt) → decide (a.flow.createdAt ≤ c.flow.createdAt) := by
    simpa using fun a b c : ledger.Entry => le_trans
  have total : ∀ a b : ledger.Entry, decide (a.flow.createdAt ≤ b.flow.createdAt) ||
      decide (b.flow.createdAt ≤ a.flow.createdAt) := by
    simpa using fun a b : ledger.Entry => le_total a.flow.createdAt b.flow.createdAt
  have ordered : ((entries.mergeSort fun a b => a.flow.createdAt ≤ b.flow.createdAt).map
      Ledger.Entry.id).Pairwise ledger.Precedes := by
    rw [List.pairwise_map]
    refine (pairwise_mergeSort_stable trans total byName).imp fun {a b} both => ?_
    obtain ⟨earlier, tie⟩ := both
    rw [Ledger.Precedes, a.rank_eq, b.rank_eq, Prod.Lex.toLex_le_toLex]
    rcases (decide_eq_true_eq.mp earlier).lt_or_eq with less | same
    · exact .inl less
    · exact .inr ⟨same, tie (decide_eq_true (le_of_eq same.symm))⟩
  have distinct : (entries.map Ledger.Entry.id).Nodup := by
    refine List.Nodup.of_map path ?_
    rw [List.map_map]
    exact named ▸ store.directory.names_nodup
  have same : ((entries.mergeSort fun a b => a.flow.createdAt ≤ b.flow.createdAt).map
      Ledger.Entry.id).Perm (ledger.flows.keys.sort ledger.Precedes) := by
    refine ((List.mergeSort_perm _ _).map _).trans ?_
    rw [List.perm_ext_iff_of_nodup distinct (Finset.sort_nodup _ _)]
    intro id
    rw [all id, Finset.mem_sort, Finmap.mem_keys]
  exact same.eq_of_pairwise (fun _ _ _ _ => antisymm) ordered (Finset.pairwise_sort _ _)

/-- A store lists what its ledger lists. -/
theorem list_of_holds (holds : store.Holds ledger) : store.list = .ok ledger.listing := by
  obtain ⟨entries, named, all⟩ := exists_entries holds
  have reads : ∀ entry ∈ entries, store.readNamed (path entry.id) = .ok entry.record := by
    intro entry _
    have read := (holds.readable entry.id entry.flow entry.found).2
    simp only [readNamed, holds.files, entry.found, Option.map_some, Option.getD_some, readItem,
      DirectoryItem.text, read, Except.mapError]
    rfl
  have records : (entries.map (path ·.id)).filter isRecordName = entries.map (path ·.id) := by
    simp [List.filter_eq_self, isRecordName_path]
  have documents : store.documents = .ok (entries.map Ledger.Entry.record) := by
    rw [Store.documents, named, records]
    exact documentsOf_of_reads reads
  have listing : (entries.mergeSort fun a b => a.flow.createdAt ≤ b.flow.createdAt).map
      Ledger.Entry.record = ledger.listing := by
    rw [Ledger.listing, ← sorted_entries named all, List.filterMap_map, ← List.filterMap_eq_map]
    refine List.filterMap_congr fun entry _ => ?_
    rw [Function.comp_apply, Function.comp_apply, entry.found]
    rfl
  rw [← listing]
  exact list_of_documents documents fun _ => rfl

end Store

end OutreachFlow
