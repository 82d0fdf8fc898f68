import OutreachFlow.Json.Basic

/-! Comparing documents by value. Numbers and truth values count alike as numbers, whatever
their kind; field order carries no meaning. Equality holds of every document and itself, while
the order, which is partial, does not place NaN: it holds between numbers, between texts, and
item by item between lists. -/
namespace OutreachFlow.Json

mutual

def same : Json → Json → Bool
  | str a, b => b.asString? = some a
  | null, b => b = null
  | bool a, b => b.asNumber?.any ((Number.int (if a then 1 else 0)).agrees ·)
  | num a, b => b.asNumber?.any (a.agrees ·)
  | arr a, arr b => a.length = b.length && sameItems a b
  | obj a, obj b => a.length = b.length && sameFields a b
  | arr _, _ | obj _, _ => false

def sameItems : List Json → List Json → Bool
  | a :: as, b :: bs => same a b && sameItems as bs
  | _, _ => true

/-- Whether each field has a value of its own kind on the other side. -/
def sameFields : List (String × Json) → Fields → Bool
  | [], _ => true
  | (key, a) :: rest, other =>
    (match Fields.get? other key with
      | some b => same a b
      | none => false) && sameFields rest other

end

mutual

/-- Whether one value comes before another; `none` if the two cannot be compared. -/
def before? : Json → Json → Option Bool
  | str a, b => b.asString?.map (a < ·)
  | arr a, arr b => beforeItems? a b
  | bool a, b => b.asNumber?.map fun b => Number.compare? (.int (if a then 1 else 0)) b = some .lt
  | num a, b => b.asNumber?.map fun b => Number.compare? a b = some .lt
  | _, _ => none

/-- The first items that differ decide, else the lengths. -/
def beforeItems? : List Json → List Json → Option Bool
  | a :: as, b :: bs => if same a b then beforeItems? as bs else before? a b
  | [], bs => some (!bs.isEmpty)
  | _ :: _, [] => some false

end

end OutreachFlow.Json
