import OutreachFlow.Import.Fault

/-! The parts of a descriptor as it was written, by this program or in an older shape. Action
fields stand in a child object or on the descriptor itself, checks under either of two keys,
and a missing, null or empty next step all mean that nothing follows. -/
namespace OutreachFlow.Source

def nextStep (fields : Fields) : Except DescriptorFault (Option String) :=
  match fields.valueOf "nextStepId" with
  | .null => .ok none
  | .str id => .ok (if id = "" then none else some id)
  | value => .error (.nextStepNotText value)

/-- The record with an action's fields: the child object, else the descriptor. -/
def actionRecord (descriptor : Fields) : Fields :=
  match descriptor.valueOf "child" with
  | .obj child => child
  | _ => descriptor

/-- An action's fields, where a message missing from the record is taken from its data. -/
def actionFields (record : Fields) : Fields :=
  match record.valueOf "message", record.valueOf "data" with
  | .null, .obj data => record.set "message" (Fields.valueOf data "message")
  | _, _ => record

def actionStep (descriptor : Fields) : Except DescriptorFault ActionStep :=
  (ActionStep.ofData (actionFields (actionRecord descriptor))).mapError .payload

/-- The step after an action: that of its record, else that of the descriptor. -/
def actionNext (descriptor : Fields) : Except DescriptorFault (Option String) := do
  match ← nextStep (actionRecord descriptor) with
  | some next => return some next
  | none => nextStep descriptor

/-- The branches of a condition, unread; null stands for none. -/
def branches (descriptor : Fields) : Except DescriptorFault (List Json) :=
  match descriptor.valueOf "child" with
  | .null => .ok []
  | .arr branches => .ok branches
  | _ => .error .branchesNotList

/-- The checks under the first of two keys that is there at all. -/
def checksUnder (key other : String) (fields : Fields) : Except DescriptorFault (List Check) :=
  (Check.listOfJson ((fields.get? key).getD (fields.valueOf other))).mapError .payload

/-- The checks of a branch, which may use the key of a check on its own. -/
def branchChecks (branch : Fields) : Except DescriptorFault (List Check) :=
  checksUnder "checks" "conditions" branch

/-- The checks of a check on its own, which may use the key of a branch. -/
def standaloneChecks (descriptor : Fields) : Except DescriptorFault (List Check) :=
  checksUnder "conditions" "checks" descriptor

end OutreachFlow.Source
