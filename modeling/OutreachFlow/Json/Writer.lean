import OutreachFlow.Json.Basic
import OutreachFlow.Text.Quoted

/-! Documents as JSON text: on one line, or indented by two spaces a level. Both are ASCII;
doubles that are no numbers are written as bare words, and what is empty takes no line. -/
namespace OutreachFlow.Json

mutual

/-- One line, with a blank after each comma and colon. -/
def compact : Json → String
  | null => "null"
  | bool value => if value then "true" else "false"
  | num value => value.write .json
  | str value => Text.jsonQuoted value
  | arr items => "[" ++ String.intercalate ", " (compactItems items) ++ "]"
  | obj fields => "\x7b" ++ String.intercalate ", " (compactFields fields) ++ "\x7d"

def compactItems : List Json → List String
  | [] => []
  | item :: rest => compact item :: compactItems rest

def compactFields : List (String × Json) → List String
  | [] => []
  | (key, value) :: rest => (Text.jsonQuoted key ++ ": " ++ compact value) :: compactFields rest

end

def margin (level : Nat) : String := String.ofList ('\n' :: List.replicate (2 * level) ' ')

/-- A bracketed block: each part on a line of its own, one level deeper than the brackets. -/
def block (opening closing : String) (level : Nat) : List String → String
  | [] => opening ++ closing
  | parts =>
    opening ++ margin (level + 1) ++ String.intercalate ("," ++ margin (level + 1)) parts ++
      margin level ++ closing

mutual

/-- Indented text, with the brackets of the value at the given level. -/
def indented (level : Nat) : Json → String
  | null => "null"
  | bool value => if value then "true" else "false"
  | num value => value.write .json
  | str value => Text.jsonQuoted value
  | arr items => block "[" "]" level (indentedItems (level + 1) items)
  | obj fields => block "\x7b" "\x7d" level (indentedFields (level + 1) fields)

def indentedItems (level : Nat) : List Json → List String
  | [] => []
  | item :: rest => indented level item :: indentedItems level rest

def indentedFields (level : Nat) : List (String × Json) → List String
  | [] => []
  | (key, value) :: rest =>
    (Text.jsonQuoted key ++ ": " ++ indented level value) :: indentedFields level rest

end

def pretty (value : Json) : String := indented 0 value

end OutreachFlow.Json
