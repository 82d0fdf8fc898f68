import OutreachFlow.Number

/-! Documents. An object is a list of fields in the order in which they were written; a key is
meant to occur once, which `Fields.set` keeps and the reader establishes. A missing field and
a null field often mean the same, hence `Fields.valueOf` beside `Fields.get?`. -/
namespace OutreachFlow

inductive Json where
  | null
  | bool (value : Bool)
  | num (value : Number)
  | str (value : String)
  | arr (items : List Json)
  | obj (fields : List (String × Json))
deriving Repr, Inhabited

abbrev Fields := List (String × Json)

namespace Json

mutual

/-- Decides identity of documents: same shape, same field order, same numbers. -/
def decEq : (a b : Json) → Decidable (a = b)
  | null, null => isTrue rfl
  | bool a, bool b => decidable_of_iff (a = b) (by simp)
  | num a, num b => decidable_of_iff (a = b) (by simp)
  | str a, str b => decidable_of_iff (a = b) (by simp)
  | arr a, arr b => have := decEqItems a b; decidable_of_iff (a = b) (by simp)
  | obj a, obj b => have := decEqFields a b; decidable_of_iff (a = b) (by simp)
  | null, bool _ | null, num _ | null, str _ | null, arr _ | null, obj _
  | bool _, null | bool _, num _ | bool _, str _ | bool _, arr _ | bool _, obj _
  | num _, null | num _, bool _ | num _, str _ | num _, arr _ | num _, obj _
  | str _, null | str _, bool _ | str _, num _ | str _, arr _ | str _, obj _
  | arr _, null | arr _, bool _ | arr _, num _ | arr _, str _ | arr _, obj _
  | obj _, null | obj _, bool _ | obj _, num _ | obj _, str _ | obj _, arr _ =>
    isFalse (by simp)

def decEqItems : (a b : List Json) → Decidable (a = b)
  | [], [] => isTrue rfl
  | [], _ :: _ | _ :: _, [] => isFalse (by simp)
  | a :: as, b :: bs =>
    have := decEq a b
    have := decEqItems as bs
    decidable_of_iff (a = b ∧ as = bs) (by simp)

def decEqFields : (a b : List (String × Json)) → Decidable (a = b)
  | [], [] => isTrue rfl
  | [], _ :: _ | _ :: _, [] => isFalse (by simp)
  | (k, a) :: as, (l, b) :: bs =>
    have := decEq a b
    have := decEqFields as bs
    decidable_of_iff (k = l ∧ a = b ∧ as = bs) (by simp [and_assoc])

end

instance : DecidableEq Json := decEq

def int (value : Int) : Json := num (.int value)

def double (value : Float) : Json := num (.double value)

/-- The values that stand for "nothing given": null, false, zero and whatever is empty. -/
def isBlank : Json → Bool
  | null => true
  | bool value => !value
  | num value => value.isZero
  | str value => value.isEmpty
  | arr items => items.isEmpty
  | obj fields => fields.isEmpty

/-- The number that a value counts as. Truth values count as one and zero. -/
def asNumber? : Json → Option Number
  | bool value => some (.int (if value then 1 else 0))
  | num value => some value
  | _ => none

def isNumeric (value : Json) : Bool := value.asNumber?.isSome

def asString? : Json → Option String
  | str value => some value
  | _ => none

/-- What a walk over a value visits: the items of a list, the keys of an object, the characters
of a text. Other values cannot be walked. -/
def elements? : Json → Option (List Json)
  | arr items => some items
  | obj fields => some (fields.map fun field => str field.1)
  | str value => some (value.toList.map fun c => str c.toString)
  | _ => none

end Json

namespace Fields

def get? (fields : Fields) (key : String) : Option Json :=
  (List.find? (fun field => field.1 = key) fields).map Prod.snd

/-- The value under a key, null if there is none. -/
def valueOf (fields : Fields) (key : String) : Json := (fields.get? key).getD .null

def has (fields : Fields) (key : String) : Bool := (fields.get? key).isSome

/-- Writes a field: a known key keeps its place, a new one goes to the end. -/
def set (fields : Fields) (key : String) (value : Json) : Fields :=
  if fields.has key then fields.map fun field => if field.1 = key then (key, value) else field
  else fields ++ [(key, value)]

/-- The fields of a written object in order: the last value of a repeated key counts and stands
where the key came first. -/
def ofEntries (entries : List (String × Json)) : Fields :=
  entries.foldl (fun fields entry => fields.set entry.1 entry.2) []

end Fields

namespace Json

def asFields? : Json → Option Fields
  | obj fields => some fields
  | _ => none

/-- A field that is written only if it is there. -/
def optional (key : String) : Option Json → Fields
  | some value => [(key, value)]
  | none => []

end Json

end OutreachFlow
