/-! How far a property holds into a list, found in strides that double, and then by halving the
last stride. If the property holds of the items up to a place and of none behind, the answer is
that place. -/
namespace OutreachFlow.Sorting

variable {α : Type}

/-- The bounds of the place after strides from `last`, where the property holds, to `next` and
further. -/
def strides (holds? : α → Option Bool) (items : List α) (last next : Nat) :
    Option (Nat × Nat) :=
  if inside : next < items.length then
    match holds? items[next] with
    | none => none
    | some true => strides holds? items next (2 * next + 1)
    | some false => some (last + 1, next)
  else some (last + 1, items.length)
termination_by items.length - next

/-- The place between two bounds, by asking about the middle; `skew` is one where the earlier of
two middles is asked about. -/
def halve (holds? : α → Option Bool) (skew : Nat) (items : List α) (low high : Nat) :
    Option Nat :=
  if between : low < high ∧ high ≤ items.length then
    have inside : low + (high - low - skew) / 2 < items.length := by omega
    match holds? items[low + (high - low - skew) / 2] with
    | none => none
    | some true => halve holds? skew items (low + (high - low - skew) / 2 + 1) high
    | some false => halve holds? skew items low (low + (high - low - skew) / 2)
  else some high
termination_by high - low

/-- The number of items at the front that have a property. -/
def reach (holds? : α → Option Bool) (skew : Nat) (items : List α) : Option Nat :=
  match items with
  | [] => some 0
  | first :: _ => do
    if ← holds? first then
      let (low, high) ← strides holds? items 0 1
      halve holds? skew items low high
    else return 0

end OutreachFlow.Sorting
