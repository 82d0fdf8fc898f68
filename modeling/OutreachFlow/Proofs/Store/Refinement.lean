import OutreachFlow.Proofs.Store.Listing

/-! The store as a finite map. Whatever calls are made on a directory that was empty at first, a store
replies to them as its ledger does, in which the last write under an id wins. -/
namespace OutreachFlow

namespace SavedFlow

/-- Changing the fields of a flow gives the fields of the changed flow. -/
theorem changedRecord_fields (flow : SavedFlow) (id : String) (changes : Fields) (now : String) :
    Store.changedRecord (flow.fields id) changes now = (flow.change changes now).fields id := by
  cases name : changes.get? "name" <;> cases description : changes.get? "description" <;>
    cases nodes : changes.get? "nodes" <;> cases edges : changes.get? "edges" <;>
    simp [Store.changedRecord, Store.applyChanges, Store.changeable, fields, change, name, description,
      nodes, edges, Fields.set, Fields.has]

end SavedFlow

namespace Store

variable {store : Store} {ledger : Ledger}

/-! What stays -/

/-- A store that draws from the same texts within the same limits. -/
structure SameSources (store after : Store) : Prop where
  ids : after.ids.text = store.ids.text
  clock : after.clock.text = store.clock.text
  limits : after.limits = store.limits

namespace SameSources

theorem refl (store : Store) : SameSources store store := ⟨rfl, rfl, rfl⟩

theorem trans {after last : Store} (first : SameSources store after) (second : SameSources after last) :
    SameSources store last :=
  ⟨second.ids.trans first.ids, second.clock.trans first.clock, second.limits.trans first.limits⟩

theorem write {id : String} {value : Json} {after : Store} (written : store.write id value = .ok after) :
    SameSources store after := by
  unfold Store.write at written
  split at written
  · contradiction
  · split at written
    · obtain rfl := Except.ok.inj written
      exact ⟨rfl, rfl, rfl⟩
    · contradiction

theorem create (store : Store) (name description nodes edges : Json) :
    SameSources store (store.create name description nodes edges).1 := by
  have drawn : SameSources store { store with ids := store.ids.advance, clock := store.clock.advance } :=
    ⟨rfl, rfl, rfl⟩
  unfold Store.create
  dsimp only
  split
  · rename_i written
    exact drawn.trans (write written)
  · exact drawn

theorem update (store : Store) (id : String) (changes : Fields) :
    SameSources store (store.update id changes).1 := by
  have ticked : SameSources store { store with clock := store.clock.advance } := ⟨rfl, rfl, rfl⟩
  unfold Store.update
  split
  · exact refl store
  · exact refl store
  · dsimp only
    split
    · exact ticked
    · split
      · rename_i written
        exact ticked.trans (write written)
      · exact ticked
  · dsimp only
    split
    · exact refl store
    · exact ticked

theorem delete (store : Store) (id : String) : SameSources store (store.delete id).1 := by
  unfold Store.delete
  split <;> exact ⟨rfl, rfl, rfl⟩

theorem perform (store : Store) (call : Call) : SameSources store (store.perform call).1 := by
  cases call with
  | get id | list => exact refl store
  | create name description nodes edges => exact create store name description nodes edges
  | update id changes => exact update store id changes
  | delete id => exact delete store id

theorem performAll (store : Store) (calls : List Call) : SameSources store (store.performAll calls).1 := by
  induction calls generalizing store with
  | nil => exact refl store
  | cons call rest ih => exact (perform store call).trans (ih _)

end SameSources

/-! Calls -/

/-- A store replies to a call as its ledger does, and holds the ledger afterwards. -/
def Follows (store : Store) (ledger : Ledger) (call : Call) : Prop :=
  Holds (store.perform call).1 (ledger.perform call).1 ∧
    (store.perform call).2 = .ok (ledger.perform call).2

theorem create_of_holds (holds : store.Holds ledger) {name description nodes edges : Json}
    (admits : ledger.Admits store.limits (.create name description nodes edges)) :
    Follows store ledger (.create name description nodes edges) := by
  obtain ⟨plain, reads⟩ := admits
  obtain ⟨directory, ids, clock, limits⟩ := store
  obtain rfl : ids = ledger.ids := holds.ids
  obtain rfl : clock = ledger.clock := holds.clock
  have drawn : Holds ⟨directory, ledger.ids.advance, ledger.clock.advance, limits⟩
      { ledger with ids := ledger.ids.advance, clock := ledger.clock.advance } :=
    { holds with ids := rfl, clock := rfl }
  have done : create ⟨directory, ledger.ids, ledger.clock, limits⟩ name description nodes edges =
      (⟨directory.put (.named (path ledger.ids.next))
        (.file ((ledger.newFlow name description nodes edges).record ledger.ids.next).pretty),
        ledger.ids.advance, ledger.clock.advance, limits⟩,
        .ok ((ledger.newFlow name description nodes edges).record ledger.ids.next)) := by
    have record : Json.obj (newRecord ledger.ids.next ledger.clock.next name description nodes edges) =
        (ledger.newFlow name description nodes edges).record ledger.ids.next := rfl
    simp only [create, record, write_of_holds drawn plain reads.1]
  rw [Follows, perform, done]
  exact ⟨holds_insert drawn reads, rfl⟩

theorem update_of_holds (holds : store.Holds ledger) {id : String} {changes : Fields}
    (admits : ledger.Admits store.limits (.update id changes)) : Follows store ledger (.update id changes) := by
  obtain ⟨plain, reads⟩ := admits
  have read := get?_of_holds holds plain
  cases found : ledger.flows.lookup id with
  | none =>
    rw [found, Option.map_none] at read
    simp only [Follows, perform, update, read, Ledger.perform, found]
    exact ⟨holds, rfl⟩
  | some flow =>
    rw [found, Option.map_some] at read
    have drawn : Holds { store with clock := ledger.clock.advance }
        { ledger with clock := ledger.clock.advance } := { holds with clock := rfl }
    have changed : changedRecord (flow.fields id) changes ledger.clock.next =
        (flow.change changes ledger.clock.next).fields id := flow.changedRecord_fields id changes _
    have own : Fields.get? ((flow.change changes ledger.clock.next).fields id) "id" = some (.str id) := by
      simp [SavedFlow.fields]
    have written := write_of_holds drawn plain (reads flow found).1
    simp only [SavedFlow.record] at written
    simp only [Follows, perform, update, read, SavedFlow.record, holds.clock, changed, own, Json.bare,
      written, Ledger.perform, found]
    exact ⟨holds_insert drawn (reads flow found), rfl⟩

theorem delete_of_holds (holds : store.Holds ledger) {id : String} (plain : IsPlain id) :
    Follows store ledger (.delete id) := by
  have lies := file?_of_holds holds plain
  cases found : ledger.flows.lookup id with
  | none =>
    have absent : id ∉ ledger.flows := Finmap.lookup_eq_none.mp found
    have unchanged : ledger.flows.erase id = ledger.flows := by
      refine Finmap.ext_lookup fun other => ?_
      by_cases same : other = id
      · rw [same, Finmap.lookup_erase, found]
      · rw [Finmap.lookup_erase_ne same]
    rw [found, Option.map_none] at lies
    simp only [Follows, perform, delete, lies, Ledger.perform, absent, unchanged]
    exact ⟨holds, rfl⟩
  | some flow =>
    have present : id ∈ ledger.flows := Finmap.mem_of_lookup_eq_some found
    rw [found, Option.map_some] at lies
    simp only [Follows, perform, delete, lies, Ledger.perform, present]
    exact ⟨holds_erase holds id, rfl⟩

theorem perform_of_holds (holds : store.Holds ledger) {call : Call} (admits : ledger.Admits store.limits call) :
    Follows store ledger call := by
  cases call with
  | create name description nodes edges => exact create_of_holds holds admits
  | get id =>
    refine ⟨holds, ?_⟩
    rw [perform, get?_of_holds holds admits]
    rfl
  | update id changes => exact update_of_holds holds admits
  | delete id => exact delete_of_holds holds admits
  | list =>
    refine ⟨holds, ?_⟩
    rw [perform, list_of_holds holds]
    rfl

theorem performAll_of_holds (holds : store.Holds ledger) {calls : List Call}
    (admits : ledger.AdmitsAll store.limits calls) :
    Holds (store.performAll calls).1 (ledger.performAll calls).1 ∧
      (store.performAll calls).2 = (ledger.performAll calls).2.map .ok := by
  induction calls generalizing store ledger with
  | nil => exact ⟨holds, rfl⟩
  | cons call rest ih =>
    obtain ⟨first, later⟩ := admits
    rw [← (SameSources.perform store call).limits] at later
    obtain ⟨kept, reply⟩ := perform_of_holds holds first
    obtain ⟨still, replies⟩ := ih kept later
    refine ⟨still, ?_⟩
    rw [performAll, Ledger.performAll]
    simp only [reply, replies, List.map_cons]

/-- Every file in the directory is named after the id inside it. -/
def NamedByIds (limit : Nat) (directory : Directory) : Prop :=
  ∀ entry ∈ directory.items, ∃ id text, ∃ record : Fields, entry = (.named (path id), .file text) ∧
    readText limit text = .ok (.obj record) ∧ record.get? "id" = some (.str id)

theorem namedByIds_of_holds (holds : store.Holds ledger) :
    NamedByIds store.limits.reading store.directory := by
  rintro ⟨place, item⟩ member
  obtain ⟨id, rfl⟩ := holds.only _ member
  have found := Directory.item?_named.mpr member
  rw [holds.files id, Option.map_eq_some_iff] at found
  obtain ⟨flow, found, rfl⟩ := found
  exact ⟨id, _, flow.fields id, rfl, (holds.readable id flow found).2, by simp [SavedFlow.fields]⟩

/-- A store on an empty directory replies to any calls as an empty ledger does, as long as ids are plain
names, drawn ids are not in use, and what is written is read back. Every file is then named after the id
inside it. -/
theorem performAll_refines {ids clock : Supply} {limits : Limits} {calls : List Call}
    (admits : Ledger.AdmitsAll limits ⟨∅, ids, clock⟩ calls) :
    (performAll ⟨.empty, ids, clock, limits⟩ calls).2 =
        (Ledger.performAll ⟨∅, ids, clock⟩ calls).2.map .ok ∧
      NamedByIds limits.reading (performAll ⟨.empty, ids, clock, limits⟩ calls).1.directory := by
  have start := holds_empty ids clock limits
  obtain ⟨holds, replies⟩ := performAll_of_holds start admits
  have named := namedByIds_of_holds holds
  rw [(SameSources.performAll _ calls).limits] at named
  exact ⟨replies, named⟩

/-- A flow that is changed, with an id among the changes under which there is none. -/
def sampleCalls : List Call :=
  [.create (.str "Welcome") (.str "first touch") (.arr []) (.arr []),
    .update "flow-0" [("name", .str "Hello"), ("id", .str "flow-1"), ("description", .null)],
    .delete "flow-1", .update "flow-1" [("name", .str "Again")], .list]

def sampleIds : Supply := ⟨fun count => "flow-" ++ toString count, 0⟩

def sampleClock : Supply := ⟨fun count => "day " ++ toString count, 0⟩

def sampleLimits : Limits := ⟨900, 900⟩

theorem performAll_refines_sampleCalls :
    (performAll ⟨.empty, sampleIds, sampleClock, sampleLimits⟩ sampleCalls).2.getLast? =
        some (.ok (.listed [(⟨.str "Hello", .null, .arr [], .arr [], "day 0", "day 1"⟩ :
          SavedFlow).record "flow-0"])) ∧
      NamedByIds sampleLimits.reading
        (performAll ⟨.empty, sampleIds, sampleClock, sampleLimits⟩ sampleCalls).1.directory := by
  have admits : Ledger.AdmitsAll sampleLimits ⟨∅, sampleIds, sampleClock⟩ sampleCalls := by decide +kernel
  obtain ⟨replies, named⟩ := performAll_refines admits
  refine ⟨?_, named⟩
  rw [replies]
  decide +kernel

end Store

end OutreachFlow
