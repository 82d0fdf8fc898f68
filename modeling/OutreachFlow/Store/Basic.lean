import OutreachFlow.Json.Depth
import OutreachFlow.Json.Order
import OutreachFlow.Json.Literal
import OutreachFlow.Json.Reader
import OutreachFlow.Json.Writer
import OutreachFlow.Sorting.Basic
import OutreachFlow.Store.Directory
import OutreachFlow.Supply

/-! Saved flows: one file of JSON text for each record, named by the record's id. An id is taken
as a path, so it may lead out of the directory or into a folder. The directory may hold other
files too, so what is read back need not be a record; listing passes over whatever cannot be opened
or is no document, though not over what is nested too deep to tell. The last write wins. -/
namespace OutreachFlow

/-- How deep documents may be nested that are read, and that are written. -/
structure Limits where
  reading : Nat
  writing : Nat
deriving DecidableEq, Repr

structure Store where
  directory : Directory
  ids : Supply
  clock : Supply
  limits : Limits

/-- Why an item holds no document. -/
inductive DocumentFault where
  | unopened (fault : ItemFault)
  | unread (fault : Json.ReadFault)
deriving DecidableEq, Repr

/-- The kinds of faults that reading a file can end in. -/
inductive FaultKind where
  | system
  | value
  | recursion
deriving DecidableEq, Repr

def DocumentFault.kind : DocumentFault → FaultKind
  | unopened (.garbled _) => .value
  | unopened _ => .system
  | unread (.tooDeep _) => .recursion
  | unread _ => .value

inductive StoreFault where
  | unreadable (fault : DocumentFault)
  | notRecord (value : Json)
  | withoutId
  | incomparable
  | unreachable (fault : PathFault)
  | tooDeep
deriving DecidableEq, Repr

namespace Store

def extension : String := ".json"

def path (id : String) : String := id ++ extension

def isRecordName (name : String) : Bool := extension.toList.isSuffixOf name.toList

def readText (limit : Nat) (text : String) : Except Json.ReadFault Json :=
  Json.ofText limit (Directory.readable text)

def readItem (limit : Nat) (item : DirectoryItem) : Except DocumentFault Json :=
  match item.text with
  | .ok text => (readText limit text).mapError .unread
  | .error fault => .error (.unopened fault)

/-- The file of an id, with its place. -/
def file? (store : Store) (id : String) : Except StoreFault (Option (Location × DirectoryItem)) :=
  (store.directory.find? (path id)).mapError .unreachable

/-- The document in a file. A stored null counts as nothing. -/
def document? (limit : Nat) (item : DirectoryItem) : Except StoreFault (Option Json) :=
  match readItem limit item with
  | .ok .null => .ok none
  | .ok value => .ok (some value)
  | .error fault => .error (.unreadable fault)

def get? (store : Store) (id : String) : Except StoreFault (Option Json) := do
  match ← store.file? id with
  | none => return none
  | some (_, item) => document? store.limits.reading item

/-! Writing -/

/-- Writes a document into the file of an id. Its text is made first. -/
def write (store : Store) (id : String) (value : Json) : Except StoreFault Store :=
  if store.limits.writing < value.depth then .error .tooDeep
  else match store.directory.write (path id) value.pretty with
    | .ok directory => .ok { store with directory := directory }
    | .error fault => .error (.unreachable fault)

def newRecord (id now : String) (name description nodes edges : Json) : Fields :=
  [("id", .str id), ("name", name), ("description", description), ("nodes", nodes),
    ("edges", edges), ("createdAt", .str now), ("updatedAt", .str now)]

def create (store : Store) (name description nodes edges : Json) :
    Store × Except StoreFault Json :=
  let id := store.ids.next
  let record := Json.obj (newRecord id store.clock.next name description nodes edges)
  let store := { store with ids := store.ids.advance, clock := store.clock.advance }
  match store.write id record with
  | .ok store => (store, .ok record)
  | .error fault => (store, .error fault)

def changeable : List String := ["name", "description", "nodes", "edges"]

/-- Takes over those of the changes that can be made; null is a value like any other. -/
def applyChanges (record changes : Fields) : Fields :=
  changeable.foldl
    (fun record key => match changes.get? key with
      | some value => record.set key value
      | none => record)
    record

def changedRecord (record changes : Fields) (now : String) : Fields :=
  (applyChanges record changes).set "updatedAt" (.str now)

def hasChange (changes : Fields) : Bool := changeable.any changes.has

/-- Changes the record under an id, and saves it under the id that it holds. The clock is read
once there is a record to put the time into. -/
def update (store : Store) (id : String) (changes : Fields) :
    Store × Except StoreFault (Option Json) :=
  match store.get? id with
  | .error fault => (store, .error fault)
  | .ok none => (store, .ok none)
  | .ok (some (.obj record)) =>
    let record := changedRecord record changes store.clock.next
    let store := { store with clock := store.clock.advance }
    match record.get? "id" with
    | none => (store, .error .withoutId)
    | some key =>
      match store.write key.bare (.obj record) with
      | .ok store => (store, .ok (some (.obj record)))
      | .error fault => (store, .error fault)
  | .ok (some value) =>
    let clock := if hasChange changes then store.clock else store.clock.advance
    ({ store with clock := clock }, .error (.notRecord value))

/-- Removes the file of an id, and tells whether there was one. -/
def delete (store : Store) (id : String) : Store × Except StoreFault Bool :=
  match store.file? id with
  | .error fault => (store, .error fault)
  | .ok none => (store, .ok false)
  | .ok (some (place, _)) =>
    ({ store with directory := store.directory.remove place }, .ok true)

/-! Listing -/

/-- What is read under a name. An item that has gone by then is like a link that leads nowhere. -/
def readNamed (store : Store) (name : String) : Except DocumentFault Json :=
  readItem store.limits.reading ((store.directory.item? (.named name)).getD .brokenLink)

/-- Whether listing passes over a file for a fault of this kind. -/
def passesOver (kind : FaultKind) : Bool := kind = .system ∨ kind = .value

/-- The documents of the files of these names. -/
def documentsOf (store : Store) : List String → Except StoreFault (List Json)
  | [] => .ok []
  | name :: rest =>
    match store.readNamed name with
    | .ok value => (store.documentsOf rest).map (value :: ·)
    | .error fault =>
      if passesOver fault.kind then store.documentsOf rest else .error (.unreadable fault)

/-- The documents of all record files, by file name. -/
def documents (store : Store) : Except StoreFault (List Json) :=
  store.documentsOf (store.directory.names.filter isRecordName)

/-- The time by which a record is listed; a record without one comes first. -/
def createdAt : Json → Except StoreFault Json
  | .obj record => .ok ((Fields.get? record "createdAt").getD (.str ""))
  | value => .error (.notRecord value)

/-- Records with their times, where all times are texts. -/
def textTimes? (timed : List (Json × Json)) : Option (List (String × Json)) :=
  timed.mapM fun (time, record) => time.asString?.map (·, record)

/-- Sorts records by time; records of one time keep their order. Texts are in order, other values
only as far as they can be compared. -/
def sortByTime (timed : List (Json × Json)) : Except StoreFault (List Json) :=
  match textTimes? timed with
  | some timed => .ok ((timed.mergeSort fun a b => a.1 ≤ b.1).map Prod.snd)
  | none =>
    match Sorting.sort (fun a b => Json.before? a.1 b.1) timed with
    | some sorted => .ok (sorted.map Prod.snd)
    | none => .error .incomparable

def list (store : Store) : Except StoreFault (List Json) := do
  let timed ← (← store.documents).mapM fun record => (createdAt record).map (·, record)
  sortByTime timed

end Store

end OutreachFlow
