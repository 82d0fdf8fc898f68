import OutreachFlow.Json.Basic

/-! How deep a document is nested. Whatever walks over documents by calling itself has a limit to
the levels that it can take. -/
namespace OutreachFlow.Json

mutual

/-- The most brackets around one value, the value's own included. -/
def depth : Json → Nat
  | arr items => itemsDepth items + 1
  | obj fields => fieldsDepth fields + 1
  | _ => 0

def itemsDepth : List Json → Nat
  | [] => 0
  | item :: rest => max (depth item) (itemsDepth rest)

def fieldsDepth : List (String × Json) → Nat
  | [] => 0
  | (_, value) :: rest => max (depth value) (fieldsDepth rest)

end

end OutreachFlow.Json
