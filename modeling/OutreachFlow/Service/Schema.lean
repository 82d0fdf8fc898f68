import OutreachFlow.Decimal.Numeral
import OutreachFlow.Json.Basic

/-! Schemas: reading a document into a value, or into the list of everything that is wrong with
it, in the order in which the parts are declared. A field has a written name and may have a
second one, which counts where the first is absent. -/
namespace OutreachFlow.Service

inductive Step where
  | field (name : String)
  | item (index : Nat)
deriving DecidableEq, Repr

inductive Complaint where
  | missing
  | notText
  | notList
  | notDictionary
  | notObject
  | notChoice
  | notNumber
  | notNumeral
  | notTruthValue
  | notJson
deriving DecidableEq, Repr

def Complaint.word : Complaint → String
  | missing => "missing"
  | notText => "string_type"
  | notList => "list_type"
  | notDictionary => "dict_type"
  | notObject => "model_attributes_type"
  | notChoice => "literal_error"
  | notNumber => "float_type"
  | notNumeral => "float_parsing"
  | notTruthValue => "bool_parsing"
  | notJson => "json_invalid"

/-- Something wrong at a place, with the value found there. Where a field is missing, that is
the object without it. -/
structure Violation where
  place : List Step
  complaint : Complaint
  found : Json
deriving DecidableEq, Repr

/-- A value that was read, or all that is wrong with the document. -/
inductive Checked (α : Type) where
  | valid (value : α)
  | invalid (violations : List Violation)

abbrev Schema (α : Type) := Json → Checked α

namespace Checked

/-- A function applied to a value, with the violations of both. -/
def apply {α β : Type} : Checked (α → β) → Checked α → Checked β
  | valid f, valid value => valid (f value)
  | valid _, invalid second => invalid second
  | invalid first, valid _ => invalid first
  | invalid first, invalid second => invalid (first ++ second)

instance : Applicative Checked where
  pure := valid
  seq f value := apply f (value ())

def refuse {α : Type} (complaint : Complaint) (found : Json) : Checked α :=
  invalid [⟨[], complaint, found⟩]

/-- Violations seen from one step further out. -/
def under {α : Type} (step : Step) : Checked α → Checked α
  | valid value => valid value
  | invalid violations =>
    invalid (violations.map fun violation => { violation with place := step :: violation.place })

end Checked

namespace Schema

def text : Schema String
  | .str value => .valid value
  | value => .refuse .notText value

def dictionary : Schema Fields
  | .obj fields => .valid fields
  | value => .refuse .notDictionary value

/-- An object whose fields are read further. -/
def record {α : Type} (read : Fields → Checked α) : Schema α
  | .obj fields => read fields
  | value => .refuse .notObject value

def optional {α : Type} (schema : Schema α) : Schema (Option α)
  | .null => .valid none
  | value => some <$> schema value

def items {α : Type} (schema : Schema α) : Nat → List Json → Checked (List α)
  | _, [] => .valid []
  | index, value :: rest =>
    List.cons <$> (schema value).under (.item index) <*> items schema (index + 1) rest

def list {α : Type} (schema : Schema α) : Schema (List α)
  | .arr values => items schema 0 values
  | value => .refuse .notList value

/-- A double: from any number within range, a truth value, or a numeral. -/
def double : Schema Float
  | .str text =>
    match Numeral.read? text with
    | some value => .valid value
    | none => .refuse .notNumeral (.str text)
  | value =>
    match value.asNumber?.bind Number.toFloat? with
    | some value => .valid value
    | none => .refuse .notNumber value

end Schema

/-- The written name of a field and a second name for it. -/
structure FieldName where
  written : String
  second : String

/-- Most fields have one name only. -/
instance : Coe String FieldName := ⟨fun name => ⟨name, name⟩⟩

namespace FieldName

/-- The value of a field, with the name under which it was found. -/
def find? (name : FieldName) (fields : Fields) : Option (String × Json) :=
  match fields.get? name.written with
  | some value => some (name.written, value)
  | none => (fields.get? name.second).map (name.second, ·)

def optional? {α : Type} (name : FieldName) (schema : Schema α) (fields : Fields) :
    Checked (Option α) :=
  match name.find? fields with
  | some (found, value) => some <$> (schema value).under (.field found)
  | none => .valid none

def orElse {α : Type} (name : FieldName) (schema : Schema α) (fallback : α) (fields : Fields) :
    Checked α :=
  (fun value => value.getD fallback) <$> name.optional? schema fields

/-- A field that may be absent or null, both of which mean that there is nothing. -/
def orNull {α : Type} (name : FieldName) (schema : Schema α) (fields : Fields) :
    Checked (Option α) :=
  name.orElse (Schema.optional schema) none fields

def required {α : Type} (name : FieldName) (schema : Schema α) (fields : Fields) : Checked α :=
  match name.find? fields with
  | some (found, value) => (schema value).under (.field found)
  | none => (Checked.refuse .missing (.obj fields)).under (.field name.written)

end FieldName

end OutreachFlow.Service
