import OutreachFlow.Text.Pieces

/-! Where files and folders lie, seen from one directory: some number of levels above it or at
the root of everything, and from there down by names. A path is a text that leads from the
directory to a location. -/
namespace OutreachFlow

inductive Origin where
  | above (levels : Nat)
  | root
deriving DecidableEq, Repr

/-- A place, with names from the outermost on. -/
structure Location where
  origin : Origin
  names : List String
deriving DecidableEq, Repr

namespace Location

def here : Location := ⟨.above 0, []⟩

def named (name : String) : Location := ⟨.above 0, [name]⟩

def child (place : Location) (name : String) : Location :=
  { place with names := place.names ++ [name] }

/-- The folder around a place; the root lies in itself. -/
def parent : Location → Location
  | ⟨.above levels, []⟩ => ⟨.above (levels + 1), []⟩
  | ⟨.root, []⟩ => ⟨.root, []⟩
  | ⟨origin, names⟩ => ⟨origin, names.dropLast⟩

def name? : Location → Option String
  | ⟨.above 0, [name]⟩ => some name
  | _ => none

end Location

/-- Why a path leads to no place, or to none that can hold a text. -/
inductive PathFault where
  | nullCharacter
  | missingFolder
  | notFolder
  | nameTooLong
  | isFolder
  | locked
deriving DecidableEq, Repr

namespace Path

def maxNameBytes : Nat := 255

/-- Where a path starts: at the root if it begins with a slash. -/
def start (path : String) : Location :=
  if path.toList.head? = some '/' then ⟨.root, []⟩ else .here

/-- The steps of a path. Doubled slashes and single dots lead nowhere. -/
def steps (path : String) : List String :=
  ((Text.pieces '/' path.toList).map String.ofList).filter fun step => step ≠ "" ∧ step ≠ "."

end Path

end OutreachFlow
