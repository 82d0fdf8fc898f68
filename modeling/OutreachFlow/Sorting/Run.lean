/-! Runs: a list divided into sorted pieces. What is sorted already is kept as it is; a piece
that is too short is filled up by insertion, where each item finds its place by halving what is
left. Comparisons need not be defined everywhere, nor be an order. -/
namespace OutreachFlow.Sorting

variable {α : Type}

theorem upper_half_smaller {list upper : List α} {middle : α}
    (halves : list.drop (list.length / 2) = middle :: upper) :
    list.length / 2 < list.length ∧ upper.length < list.length := by
  have := congrArg List.length halves
  grind

/-- Inserts an item into a sorted list, behind what it is not before. -/
def insert (before? : α → α → Option Bool) (item : α) (sorted : List α) : Option (List α) :=
  match _ : sorted.drop (sorted.length / 2) with
  | [] => some [item]
  | middle :: upper =>
    match before? item middle with
    | none => none
    | some true =>
      (insert before? item (sorted.take (sorted.length / 2))).map (· ++ middle :: upper)
    | some false =>
      (insert before? item upper).map (sorted.take (sorted.length / 2) ++ middle :: ·)
termination_by sorted.length
decreasing_by
  all_goals grind [upper_half_smaller ‹_›]

/-- The items at the front of which each compares to the one in front of it as wanted, and the
rest. -/
def run (before? : α → α → Option Bool) (wanted : Bool) (last : α) :
    List α → Option (List α × List α)
  | [] => some ([], [])
  | item :: rest =>
    match before? item last with
    | none => none
    | some found =>
      if found = wanted then
        (run before? wanted item rest).map fun (front, rest) => (item :: front, rest)
      else some ([], item :: rest)

/-- Splits off the sorted front of a list with at least one item. A front that falls from item
to item is turned around. -/
def sortedFront (before? : α → α → Option Bool) (first : α) :
    List α → Option (List α × List α)
  | [] => some ([first], [])
  | second :: rest =>
    match before? second first with
    | none => none
    | some falling =>
      (run before? falling second rest).map fun (front, rest) =>
        let front := first :: second :: front
        (if falling then front.reverse else front, rest)

def insertAll (before? : α → α → Option Bool) (items sorted : List α) : Option (List α) :=
  items.foldlM (fun sorted item => insert before? item sorted) sorted

/-- Halves a length until it is below 64, and adds one if a half was lost on the way. -/
def leastLength (lost length : Nat) : Nat :=
  if length < 64 then length + lost else leastLength (max lost (length % 2)) (length / 2)

/-- Divides a list into runs of a least length, except for the last; `fuel` bounds their
number. -/
def runs (before? : α → α → Option Bool) (least : Nat) : Nat → List α → Option (List (List α))
  | _, [] => some []
  | 0, _ :: _ => none
  | fuel + 1, first :: rest => do
    let (front, rest) ← sortedFront before? first rest
    let missing := least - front.length
    let front ← insertAll before? (rest.take missing) front
    let others ← runs before? least fuel (rest.drop missing)
    return front :: others

end OutreachFlow.Sorting
