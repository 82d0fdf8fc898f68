import OutreachFlow.Payload.Action

/-! What a condition check asks: predicates that all must have the stated outcome. A check has
two written forms that differ in where the waiting time stands; either is read, and of two
waiting times the flat one counts. -/
namespace OutreachFlow

/-- One predicate with the outcome it must have, and a waiting time in hours if it needs one. -/
structure Check where
  condition : Predicate
  outcome : Bool
  hours : Option Number
deriving DecidableEq, Repr

namespace Check

/-- The outcome is true unless it is given. -/
def readOutcome (fields : Fields) : Except PayloadFault Bool :=
  match (fields.get? "value").getD (.bool true) with
  | .bool value => .ok value
  | value => .error (.outcomeNotTruthValue value)

/-- The waiting time beside the condition, else the one in the extra value. -/
def hoursValue (fields : Fields) : Json :=
  match fields.valueOf "timeInHours", fields.valueOf "conditionExtraValue" with
  | .null, .obj extra => Fields.valueOf extra "timeInHours"
  | hours, _ => hours

def readHours : Json → Except PayloadFault (Option Number)
  | .null => .ok none
  | .num hours => .ok (some hours)
  | value => .error (.hoursNotNumber value)

def ofFields (fields : Fields) : Except PayloadFault Check := do
  let outcome ← readOutcome fields
  let hours ← readHours (hoursValue fields)
  let condition ← readWord "condition" (fields.valueOf "condition")
  return ⟨condition, outcome, hours⟩

def ofJson : Json → Except PayloadFault Check
  | .obj fields => ofFields fields
  | value => .error (.checkNotObject value)

/-- Reads a list of checks; null stands for an empty one. -/
def listOfJson : Json → Except PayloadFault (List Check)
  | .null => .ok []
  | .arr items => items.mapM ofJson
  | value => .error (.checksNotList value)

def words (check : Check) : Fields :=
  [("condition", .str (Vocabulary.word check.condition)), ("value", .bool check.outcome)]

/-- The flat form, with the waiting time beside the condition. -/
def toFlat (check : Check) : Json :=
  .obj (check.words ++ Json.optional "timeInHours" (check.hours.map .num))

/-- The form of execution plans, with the waiting time in an extra value. -/
def toNested (check : Check) : Json :=
  .obj (check.words ++
    Json.optional "conditionExtraValue"
      (check.hours.map fun hours => .obj [("timeInHours", .num hours)]))

/-- A check that asks for elapsed time must say how much. -/
def lacksHours (check : Check) : Bool := check.condition = .hasTimePassed ∧ check.hours = none

end Check

end OutreachFlow
