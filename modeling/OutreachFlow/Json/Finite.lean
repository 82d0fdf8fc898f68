import OutreachFlow.Json.Basic
import OutreachFlow.Text.Surrogate

/-! What cannot be sent as it is: doubles that JSON proper has no form for, which are infinities
and what is no number, and texts with surrogates that stand alone. -/
namespace OutreachFlow.Json

mutual

def hasNonFinite : Json → Bool
  | num (.double value) => value.isNaN || value.isInf
  | arr items => itemsHaveNonFinite items
  | obj fields => fieldsHaveNonFinite fields
  | _ => false

def itemsHaveNonFinite : List Json → Bool
  | [] => false
  | item :: rest => hasNonFinite item || itemsHaveNonFinite rest

def fieldsHaveNonFinite : List (String × Json) → Bool
  | [] => false
  | (_, value) :: rest => hasNonFinite value || fieldsHaveNonFinite rest

end

mutual

/-- A document with null in the place of every double that is not finite. -/
def finitePart : Json → Json
  | num (.double value) => if value.isNaN || value.isInf then null else num (.double value)
  | arr items => arr (finiteItems items)
  | obj fields => obj (finiteFields fields)
  | value => value

def finiteItems : List Json → List Json
  | [] => []
  | item :: rest => finitePart item :: finiteItems rest

def finiteFields : List (String × Json) → List (String × Json)
  | [] => []
  | (key, value) :: rest => (key, finitePart value) :: finiteFields rest

end

mutual

theorem finitePart_of_finite : {value : Json} → value.hasNonFinite = false → value.finitePart = value
  | null, _ | bool _, _ | str _, _ | num (.int _), _ => rfl
  | num (.double value), finite => by
    rw [hasNonFinite] at finite
    rw [finitePart, if_neg (by simpa using finite)]
  | arr _, finite => by rw [finitePart, finiteItems_of_finite finite]
  | obj _, finite => by rw [finitePart, finiteFields_of_finite finite]

theorem finiteItems_of_finite : {items : List Json} → itemsHaveNonFinite items = false →
    finiteItems items = items
  | [], _ => rfl
  | _ :: _, finite => by
    rw [itemsHaveNonFinite, Bool.or_eq_false_iff] at finite
    rw [finiteItems, finitePart_of_finite finite.1, finiteItems_of_finite finite.2]

theorem finiteFields_of_finite : {fields : List (String × Json)} → fieldsHaveNonFinite fields = false →
    finiteFields fields = fields
  | [], _ => rfl
  | _ :: _, finite => by
    rw [fieldsHaveNonFinite, Bool.or_eq_false_iff] at finite
    rw [finiteFields, finitePart_of_finite finite.1, finiteFields_of_finite finite.2]

end

mutual

/-- Whether a text in the document has a stand-in, be it a key. -/
def hasStandIn : Json → Bool
  | str value => Text.hasStandIn value
  | arr items => itemsHaveStandIn items
  | obj fields => fieldsHaveStandIn fields
  | _ => false

def itemsHaveStandIn : List Json → Bool
  | [] => false
  | item :: rest => hasStandIn item || itemsHaveStandIn rest

def fieldsHaveStandIn : List (String × Json) → Bool
  | [] => false
  | (key, value) :: rest => Text.hasStandIn key || hasStandIn value || fieldsHaveStandIn rest

end

end OutreachFlow.Json
