import OutreachFlow.Sorting.Merge
import OutreachFlow.Sorting.Run

/-! Sorting by a comparison that need not be defined everywhere, nor be an order. A list is
divided into runs, and neighbouring runs are merged so that the merges are balanced. For a total
preorder the result is the sorted list in which equal items keep their order; for any other
comparison, which pairs are compared still decides the result. -/
namespace OutreachFlow.Sorting

variable {α : Type}

/-- How often a whole must be halved until two points in it, both counted twofold, lie in
different parts; `fuel` bounds the number. -/
def halvings (whole : Nat) : Nat → Nat → Nat → Nat
  | 0, _, _ => 0
  | fuel + 1, a, b =>
    if whole ≤ a then halvings whole fuel (2 * (a - whole)) (2 * (b - whole)) + 1
    else if whole ≤ b then 1
    else halvings whole fuel (2 * a) (2 * b) + 1

/-- The depth of the border between neighbouring runs, the first of which starts at a place:
the number of halvings that part their middles. -/
def depth (whole start first second : Nat) : Nat :=
  let middle := 2 * start + first
  halvings whole (whole + 1) middle (middle + first + second)

/-- A run that waits to be merged, with the depth of the border behind it. -/
structure Waiting (α : Type) where
  run : List α
  border : Nat

/-- Merges a run with those before it, nearest first, as long as the border between them is
deeper than a new one. -/
def settle (before? : α → α → Option Bool) (border : Nat) (run : List α) :
    List (Waiting α) → StateT Nat Option (List α × List (Waiting α))
  | [] => return (run, [])
  | previous :: waiting =>
    if border < previous.border then do
      let merged ← mergeRuns before? previous.run run
      settle before? border merged waiting
    else return (run, previous :: waiting)

/-- Adds runs to those that wait, nearest first. -/
def queue (before? : α → α → Option Bool) (whole : Nat) (run : List α)
    (waiting : List (Waiting α)) : List (List α) → StateT Nat Option (List (List α))
  | [] => return run :: waiting.map Waiting.run
  | next :: later => do
    let start := (waiting.map fun previous => previous.run.length).sum
    let border := depth whole start run.length next.length
    let (run, waiting) ← settle before? border run waiting
    queue before? whole next (⟨run, border⟩ :: waiting) later

/-- Merges all that is left, last first. The last run waits if those before it are shorter. -/
def mergeAll (before? : α → α → Option Bool) :
    List (List α) → StateT Nat Option (List α)
  | [] => return []
  | [run] => return run
  | [last, first] => mergeRuns before? first last
  | last :: middle :: first :: waiting =>
    if first.length < last.length then do
      let merged ← mergeRuns before? first middle
      mergeAll before? (last :: merged :: waiting)
    else do
      let merged ← mergeRuns before? middle last
      mergeAll before? (merged :: first :: waiting)
termination_by runs => runs.length

def mergeNeighbours (before? : α → α → Option Bool) (whole : Nat) :
    List (List α) → StateT Nat Option (List α)
  | [] => return []
  | run :: later => do
    let waiting ← queue before? whole run [] later
    mergeAll before? waiting

/-- Sorts a list, unless two items are met that cannot be compared. -/
def sort (before? : α → α → Option Bool) (items : List α) : Option (List α) := do
  let runs ← runs before? (leastLength 0 items.length) items.length items
  (mergeNeighbours before? items.length runs).run' longRow

end OutreachFlow.Sorting
