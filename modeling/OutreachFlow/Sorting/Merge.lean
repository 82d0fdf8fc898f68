import OutreachFlow.Sorting.Reach

/-! Merging two neighbouring runs. Of what has to move, the longer side gives the first item, so
that the shorter side is the one that is kept to the end; merging starts where the kept side
comes first or, seen from behind, last. Items are taken one at a time until one side has won
often enough in a row, and then in whole rows. How often is enough is the patience, which falls
while rows are long and is handed on from merge to merge. -/
namespace OutreachFlow.Sorting

variable {α : Type}

/-- A merge under way: what was taken, last first, and what is left of both sides, nearest
first. -/
structure Merge (α : Type) where
  taken : List α
  kept : List α
  other : List α

namespace Merge

/-- The last kept item follows all that is left of the other side. -/
def ended (merge : Merge α) : Bool := merge.other.isEmpty || merge.kept.length ≤ 1

def result (merge : Merge α) : List α := merge.taken.reverse ++ merge.other ++ merge.kept

def takeKept (merge : Merge α) (count : Nat) : Merge α :=
  { merge with
    taken := (merge.kept.take count).reverse ++ merge.taken
    kept := merge.kept.drop count }

def takeOther (merge : Merge α) (count : Nat) : Merge α :=
  { merge with
    taken := (merge.other.take count).reverse ++ merge.taken
    other := merge.other.drop count }

def left (merge : Merge α) : Nat := merge.kept.length + merge.other.length

/-- Takes the kept items that come before the next one of the other side, and then that one. -/
def keptRow (ahead? : α → α → Option Bool) (skew : Nat) (merge : Merge α) :
    Option (Merge α × Nat) :=
  match merge.ended, merge.other with
  | false, item :: _ => do
    let count ← reach (fun kept => (ahead? item kept).map not) skew merge.kept
    let merge := merge.takeKept count
    return (if merge.ended then merge else merge.takeOther 1, count)
  | _, _ => return (merge, 0)

/-- Takes the items of the other side that come before the next kept one, and then that one. -/
def otherRow (ahead? : α → α → Option Bool) (skew : Nat) (merge : Merge α) :
    Option (Merge α × Nat) :=
  match merge.ended, merge.kept with
  | false, item :: _ => do
    let count ← reach (fun other => ahead? other item) skew merge.other
    let merge := merge.takeOther count
    return (if merge.ended then merge else merge.takeKept 1, count)
  | _, _ => return (merge, 0)

end Merge

inductive Direction where
  | forward
  | backward
deriving DecidableEq, Repr

namespace Direction

/-- Whether an item of the other side comes before a kept one, seen in a direction. -/
def ahead? (direction : Direction) (before? : α → α → Option Bool) (other kept : α) :
    Option Bool :=
  match direction with
  | forward => before? other kept
  | backward => before? kept other

def skew : Direction → Nat
  | forward => 0
  | backward => 1

/-- Takes a row of each side, first the one that lies before the other in the list. -/
def rows (direction : Direction) (before? : α → α → Option Bool) (merge : Merge α) :
    Option (Merge α × Nat) := do
  let ahead? := direction.ahead? before?
  match direction with
  | forward =>
    let (merge, first) ← merge.keptRow ahead? direction.skew
    let (merge, second) ← merge.otherRow ahead? direction.skew
    return (merge, max first second)
  | backward =>
    let (merge, first) ← merge.otherRow ahead? direction.skew
    let (merge, second) ← merge.keptRow ahead? direction.skew
    return (merge, max first second)

end Direction

/-- How items are taken: one at a time, with the number of times that either side has won in a
row, or in rows. -/
inductive Pace where
  | single (kept other : Nat)
  | rows

/-- The patience at the start, and the length from which a row is long. -/
def longRow : Nat := 7

/-- Takes the next item or rows of a merge that has not ended. -/
def Direction.advance (direction : Direction) (before? : α → α → Option Bool) (patience : Nat)
    (merge : Merge α) : Pace → Option (Merge α × Pace × Nat)
  | .single keptWins otherWins =>
    match merge.kept, merge.other with
    | kept :: _, other :: _ => do
      let (merge, keptWins, otherWins) :=
        if ← direction.ahead? before? other kept then (merge.takeOther 1, 0, otherWins + 1)
        else (merge.takeKept 1, keptWins + 1, 0)
      return if patience ≤ max keptWins otherWins ∧ !merge.ended then
          (merge, .rows, patience + 1)
        else (merge, .single keptWins otherWins, patience)
    | _, _ => none
  | .rows => do
    let patience := if 1 < patience then patience - 1 else patience
    let (merge, length) ← direction.rows before? merge
    return if longRow ≤ length ∨ merge.ended then (merge, .rows, patience)
      else (merge, .single 0 0, patience + 1)

/-- Carries a merge to its end, in at most `fuel` steps. -/
def Direction.finish (direction : Direction) (before? : α → α → Option Bool) :
    Nat → Nat → Merge α → Pace → Option (List α × Nat)
  | 0, patience, merge, _ => some (merge.result, patience)
  | fuel + 1, patience, merge, pace =>
    if merge.ended then some (merge.result, patience)
    else do
      let (merge, pace, patience) ← direction.advance before? patience merge pace
      direction.finish before? fuel patience merge pace

/-- Merges two sides, nearest first. The first item is one of the other side. -/
def Direction.merge (direction : Direction) (before? : α → α → Option Bool)
    (kept other : List α) : StateT Nat Option (List α) := fun patience =>
  let merge := Merge.takeOther ⟨[], kept, other⟩ 1
  direction.finish before? (merge.left + 1) patience merge (.single 0 0)

def mergeMoving (before? : α → α → Option Bool) (first second : List α) :
    StateT Nat Option (List α) :=
  if first.length ≤ second.length then Direction.forward.merge before? first second
  else List.reverse <$> Direction.backward.merge before? second.reverse first.reverse

/-- Merges two neighbouring runs. What comes before all of the second run and what comes after
all of the first one stays in its place. -/
def mergeRuns (before? : α → α → Option Bool) (first second : List α) :
    StateT Nat Option (List α) :=
  match second.head?, first.getLast? with
  | some head, some last => do
    let lead ← reach (fun item => (before? head item).map not) 0 first
    if lead = first.length then return first ++ second
    let tail ← reach (fun item => (before? item last).map not) 1 second.reverse
    let moving := second.length - tail
    if moving = 0 then return first ++ second
    let merged ← mergeMoving before? (first.drop lead) (second.take moving)
    return first.take lead ++ merged ++ second.drop moving
  | _, _ => return first ++ second

end OutreachFlow.Sorting
