import Mathlib.Data.Finmap
import Mathlib.Data.Finset.Sort
import Mathlib.Data.Prod.Lex
import Mathlib.Data.String.Basic
import OutreachFlow.Proofs.Store.PlainNames

/-! What a store is for: a finite map from ids to flows. A ledger is that map, with the supplies that
a store draws from and without any files. Calls to a ledger say what calls to a store should do. -/
namespace OutreachFlow

/-- A flow as it is kept. -/
structure SavedFlow where
  name : Json
  description : Json
  nodes : Json
  edges : Json
  createdAt : String
  updatedAt : String

namespace SavedFlow

def fields (flow : SavedFlow) (id : String) : Fields :=
  [("id", .str id), ("name", flow.name), ("description", flow.description), ("nodes", flow.nodes),
    ("edges", flow.edges), ("createdAt", .str flow.createdAt), ("updatedAt", .str flow.updatedAt)]

/-- The record of a flow under an id. -/
def record (flow : SavedFlow) (id : String) : Json := .obj (flow.fields id)

/-- The flow with those of the changes that can be made. -/
def change (flow : SavedFlow) (changes : Fields) (now : String) : SavedFlow where
  name := (changes.get? "name").getD flow.name
  description := (changes.get? "description").getD flow.description
  nodes := (changes.get? "nodes").getD flow.nodes
  edges := (changes.get? "edges").getD flow.edges
  createdAt := flow.createdAt
  updatedAt := now

end SavedFlow

/-- Calls to a store. -/
inductive Store.Call where
  | create (name description nodes edges : Json)
  | get (id : String)
  | update (id : String) (changes : Fields)
  | delete (id : String)
  | list

inductive Store.Reply where
  | created (record : Json)
  | found (record : Option Json)
  | deleted (done : Bool)
  | listed (records : List Json)
deriving DecidableEq, Repr

namespace Store

def perform (store : Store) : Call → Store × Except StoreFault Reply
  | .create name description nodes edges =>
    let (store, record) := store.create name description nodes edges
    (store, record.map .created)
  | .get id => (store, (store.get? id).map .found)
  | .update id changes =>
    let (store, record) := store.update id changes
    (store, record.map .found)
  | .delete id =>
    let (store, done) := store.delete id
    (store, done.map .deleted)
  | .list => (store, store.list.map .listed)

/-- Makes calls one after the other, and keeps the replies. -/
def performAll (store : Store) : List Call → Store × List (Except StoreFault Reply)
  | [] => (store, [])
  | call :: rest =>
    let (store, reply) := store.perform call
    let (store, replies) := store.performAll rest
    (store, reply :: replies)

/-- A value can be written, and what is written of it is read back as that value. -/
def ReadsBack (limits : Limits) (value : Json) : Prop :=
  value.depth ≤ limits.writing ∧ readText limits.reading value.pretty = .ok value

instance (limits : Limits) (value : Json) : Decidable (ReadsBack limits value) :=
  inferInstanceAs (Decidable (_ ∧ _ = _))

end Store

structure Ledger where
  flows : Finmap fun _ : String => SavedFlow
  ids : Supply
  clock : Supply

namespace Ledger

/-- By the time of creation, and flows of one time by the name of their file. -/
def rank (ledger : Ledger) (id : String) : String ×ₗ String :=
  toLex (((ledger.flows.lookup id).map SavedFlow.createdAt).getD "", Store.path id)

def Precedes (ledger : Ledger) (id other : String) : Prop := ledger.rank id ≤ ledger.rank other

variable {limits : Limits} {ledger : Ledger}

instance : DecidableRel ledger.Precedes := fun id other =>
  inferInstanceAs (Decidable (ledger.rank id ≤ ledger.rank other))

instance : IsTrans String ledger.Precedes := ⟨fun _ _ _ first second => le_trans first second⟩

instance : Std.Total ledger.Precedes := ⟨fun id other => le_total (ledger.rank id) (ledger.rank other)⟩

instance : Std.Antisymm ledger.Precedes := by
  refine ⟨fun id other first second => ?_⟩
  have same : ledger.rank id = ledger.rank other := le_antisymm first second
  exact Store.path_inj.mp (Prod.mk.inj (toLex.injective same)).2

/-- All records in order. -/
def listing (ledger : Ledger) : List Json :=
  (ledger.flows.keys.sort ledger.Precedes).filterMap fun id =>
    (ledger.flows.lookup id).map fun flow => flow.record id

/-- A flow as it is first kept. -/
def newFlow (ledger : Ledger) (name description nodes edges : Json) : SavedFlow :=
  ⟨name, description, nodes, edges, ledger.clock.next, ledger.clock.next⟩

def perform (ledger : Ledger) : Store.Call → Ledger × Store.Reply
  | .create name description nodes edges =>
    let id := ledger.ids.next
    let flow := ledger.newFlow name description nodes edges
    (⟨ledger.flows.insert id flow, ledger.ids.advance, ledger.clock.advance⟩, .created (flow.record id))
  | .get id => (ledger, .found ((ledger.flows.lookup id).map fun flow => flow.record id))
  | .update id changes =>
    match ledger.flows.lookup id with
    | none => (ledger, .found none)
    | some flow =>
      let flow := flow.change changes ledger.clock.next
      (⟨ledger.flows.insert id flow, ledger.ids, ledger.clock.advance⟩, .found (some (flow.record id)))
  | .delete id => ({ ledger with flows := ledger.flows.erase id }, .deleted (id ∈ ledger.flows))
  | .list => (ledger, .listed ledger.listing)

def performAll (ledger : Ledger) : List Store.Call → Ledger × List Store.Reply
  | [] => (ledger, [])
  | call :: rest =>
    let (ledger, reply) := ledger.perform call
    let (ledger, replies) := ledger.performAll rest
    (ledger, reply :: replies)

/-- What a call relies on: that ids are plain names, and that the record which it writes is read back. A
drawn id may be in use, in which case the last write wins here too. -/
def Admits (limits : Limits) (ledger : Ledger) : Store.Call → Prop
  | .create name description nodes edges =>
    Store.IsPlain ledger.ids.next ∧
      Store.ReadsBack limits ((ledger.newFlow name description nodes edges).record ledger.ids.next)
  | .get id | .delete id => Store.IsPlain id
  | .update id changes =>
    Store.IsPlain id ∧ ∀ flow ∈ ledger.flows.lookup id,
      Store.ReadsBack limits ((flow.change changes ledger.clock.next).record id)
  | .list => True

def AdmitsAll (limits : Limits) (ledger : Ledger) : List Store.Call → Prop
  | [] => True
  | call :: rest => ledger.Admits limits call ∧ (ledger.perform call).1.AdmitsAll limits rest

instance : (call : Store.Call) → Decidable (ledger.Admits limits call)
  | .create .. => inferInstanceAs (Decidable (_ ∧ Store.ReadsBack _ _))
  | .get id | .delete id => inferInstanceAs (Decidable (Store.IsPlain id))
  | .update .. => inferInstanceAs (Decidable (_ ∧ ∀ flow ∈ _, Store.ReadsBack _ _))
  | .list => inferInstanceAs (Decidable True)

instance decidableAdmitsAll : (ledger : Ledger) → (calls : List Store.Call) →
    Decidable (ledger.AdmitsAll limits calls)
  | _, [] => inferInstanceAs (Decidable True)
  | ledger, call :: rest =>
    have := decidableAdmitsAll (ledger.perform call).1 rest
    inferInstanceAs (Decidable (ledger.Admits limits call ∧ (ledger.perform call).1.AdmitsAll limits rest))

end Ledger

end OutreachFlow
