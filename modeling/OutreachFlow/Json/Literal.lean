import OutreachFlow.Json.Basic
import OutreachFlow.Text.Quoted

/-! Documents inside messages: the literal form of a value, its bare form where a text stands
without quotes, and the name of its type. Not every value can be printed, which a message that
shows one has to reckon with. -/
namespace OutreachFlow.Json

mutual

def literal : Json → String
  | null => "None"
  | bool value => if value then "True" else "False"
  | num value => value.write .plain
  | str value => Text.quoted value
  | arr items => "[" ++ String.intercalate ", " (literalItems items) ++ "]"
  | obj fields => "\x7b" ++ String.intercalate ", " (literalFields fields) ++ "\x7d"

def literalItems : List Json → List String
  | [] => []
  | item :: rest => literal item :: literalItems rest

def literalFields : List (String × Json) → List String
  | [] => []
  | (key, value) :: rest => (Text.quoted key ++ ": " ++ literal value) :: literalFields rest

end

/-- The literal form, except that a text stands bare. -/
def bare : Json → String
  | str value => value
  | value => value.literal

inductive PrintFault where
  | tooDeep
  | integerTooLong
deriving DecidableEq, Repr

mutual

/-- What stops the printing of a value with `limit` levels left, of which each value takes one. -/
def printFault? : Nat → Json → Option PrintFault
  | 0, _ => some .tooDeep
  | _ + 1, num value => if value.IsShort then none else some .integerTooLong
  | limit + 1, arr items => itemsPrintFault? limit items
  | limit + 1, obj fields => fieldsPrintFault? limit fields
  | _ + 1, _ => none

def itemsPrintFault? (limit : Nat) : List Json → Option PrintFault
  | [] => none
  | item :: rest => (printFault? limit item).or (itemsPrintFault? limit rest)

/-- A key needs no more levels than its value. -/
def fieldsPrintFault? (limit : Nat) : List (String × Json) → Option PrintFault
  | [] => none
  | (_, value) :: rest => (printFault? limit value).or (fieldsPrintFault? limit rest)

end

def integerTooLongText : String :=
  "Exceeds the limit (" ++ toString Number.maxIntegerDigits ++
    " digits) for integer string conversion; use sys.set_int_max_str_digits() to increase the limit"

/-- The text of a message that shows a value, if it shows one. An integer that is too long has a
text of its own in its place, and a value that is nested too deep leaves none. -/
def told? (limit : Nat) (shown : Option Json) (message : String) : Option String :=
  match shown.bind (printFault? limit) with
  | none => some message
  | some .integerTooLong => some integerTooLongText
  | some .tooDeep => none

/-- What has to be printed of a value for its bare form. -/
def printed? : Json → Option Json
  | str _ => none
  | value => some value

def typeName : Json → String
  | null => "NoneType"
  | bool _ => "bool"
  | num (.int _) => "int"
  | num (.double _) => "float"
  | str _ => "str"
  | arr _ => "list"
  | obj _ => "dict"

end OutreachFlow.Json
