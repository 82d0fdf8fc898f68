import OutreachFlow.Store.Location
import OutreachFlow.Text.Encoding

/-! Files and folders in and around one directory. The directory, what is above it and the root
are folders; every other folder is an item of its own. A path is walked step by step, and each
step needs a folder to start from, also one that goes back. Not every file can be read: its bytes
may be no text, it may be locked, and a link may lead to a file that is not there. -/
namespace OutreachFlow

inductive DirectoryItem where
  | file (text : String)
  | garbled (cause : Text.DecodeFault)
  | locked
  | brokenLink
  | folder
deriving DecidableEq, Repr

/-- Why an item gives no text. -/
inductive ItemFault where
  | isFolder
  | missing
  | locked
  | garbled (cause : Text.DecodeFault)
deriving DecidableEq, Repr

namespace DirectoryItem

def isFile : DirectoryItem → Bool
  | file _ | garbled _ | locked => true
  | brokenLink | folder => false

/-- The text that is found on opening an item. -/
def text : DirectoryItem → Except ItemFault String
  | file text => .ok text
  | garbled cause => .error (.garbled cause)
  | locked => .error .locked
  | brokenLink => .error .missing
  | folder => .error .isFolder

end DirectoryItem

structure Directory where
  items : List (Location × DirectoryItem)
  distinct : (items.map Prod.fst).Nodup
deriving DecidableEq, Repr

namespace Directory

def empty : Directory := ⟨[], .nil⟩

def item? (directory : Directory) (place : Location) : Option DirectoryItem :=
  if place.names = [] then some .folder
  else (directory.items.find? fun item => item.1 = place).map Prod.snd

/-- All names right in the directory, in the order of texts. -/
def names (directory : Directory) : List String :=
  (directory.items.filterMap fun item => item.1.name?).mergeSort fun a b => a ≤ b

def remove (directory : Directory) (place : Location) : Directory :=
  ⟨directory.items.filter fun item => item.1 ≠ place,
    directory.distinct.sublist (List.filter_sublist.map Prod.fst)⟩

/-- Puts an item at a place instead of what was there. -/
def put (directory : Directory) (place : Location) (item : DirectoryItem) : Directory :=
  ⟨(place, item) :: (directory.remove place).items, by
    simpa [remove] using (directory.remove place).distinct⟩

theorem item?_remove (directory : Directory) (place other : Location)
    (below : other.names ≠ []) :
    (directory.remove place).item? other =
      if other = place then none else directory.item? other := by
  split
  · rename_i same
    simp [remove, item?, List.find?_eq_none, same ▸ below, same]
  · rename_i different
    have : (fun item : Location × DirectoryItem =>
        !decide (item.1 = place) && decide (item.1 = other)) =
          fun item => decide (item.1 = other) := by
      funext item
      by_cases h : item.1 = other <;> simp [h, different]
    simp [remove, item?, List.find?_filter, this]

theorem item?_put (directory : Directory) (place other : Location) (item : DirectoryItem)
    (below : other.names ≠ []) :
    (directory.put place item).item? other =
      if other = place then some item else directory.item? other := by
  have := item?_remove directory place other below
  by_cases h : other = place
  · subst h
    simp [put, item?, below]
  · simp_all [put, item?, Ne.symm h]

/-! Paths -/

/-- Walks on from a place. Every place that is left must be a folder. -/
def walk (directory : Directory) (place : Location) : List String → Except PathFault Location
  | [] => .ok place
  | step :: rest =>
    match directory.item? place with
    | some .folder =>
      if step = ".." then directory.walk place.parent rest
      else if Path.maxNameBytes < step.utf8ByteSize then .error .nameTooLong
      else directory.walk (place.child step) rest
    | some .brokenLink | none => .error .missingFolder
    | some _ => .error .notFolder

/-- The place to which a path leads, whether or not something is there. -/
def locate (directory : Directory) (path : String) : Except PathFault Location :=
  if path.toList.contains '\x00' then .error .nullCharacter
  else directory.walk (Path.start path) (Path.steps path)

/-- Writes a text file. A folder and a locked file stay what they are; behind a link that leads
nowhere there is a file then. -/
def write (directory : Directory) (path text : String) : Except PathFault Directory :=
  match directory.locate path with
  | .error fault => .error fault
  | .ok place =>
    match directory.item? place with
    | some .folder => .error .isFolder
    | some .locked => .error .locked
    | _ => .ok (directory.put place (.file text))

/-- Makes a folder where nothing is. -/
def addFolder (directory : Directory) (path : String) : Directory :=
  match directory.locate path with
  | .ok place =>
    if (directory.item? place).isSome then directory else directory.put place .folder
  | .error _ => directory

/-- The file to which a path leads, with its place, whether or not it can be read. A path that
breaks off leads to none, but a name that is too long is a fault. -/
def find? (directory : Directory) (path : String) :
    Except PathFault (Option (Location × DirectoryItem)) :=
  match directory.locate path with
  | .ok place => .ok (((directory.item? place).filter DirectoryItem.isFile).map (place, ·))
  | .error .nameTooLong => .error .nameTooLong
  | .error _ => .ok none

/-! Reading -/

/-- Line ends of any kind as line feeds. -/
def unifyLines : List Char → List Char
  | '\r' :: '\n' :: rest => '\n' :: unifyLines rest
  | '\r' :: rest => '\n' :: unifyLines rest
  | c :: rest => c :: unifyLines rest
  | [] => []

def readable (text : String) : String := String.ofList (unifyLines text.toList)

def read? (directory : Directory) (path : String) : Option String :=
  ((directory.find? path).toOption.join).bind fun (_, item) => item.text.toOption.map readable

end Directory

end OutreachFlow
