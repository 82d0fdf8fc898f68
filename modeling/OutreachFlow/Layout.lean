import OutreachFlow.Graph.Node

/-! Where imported nodes stand that bring no position: primary nodes in one column, top to
bottom in the order in which they come, and the checks of a condition beside it. -/
namespace OutreachFlow.Layout

def primaryX : Float := 250.0
def primaryYStart : Float := 100.0
def primaryYStep : Float := 200.0
def checkXOffset : Float := 350.0
def checkYStep : Float := 120.0

def primary (slot : Nat) : Position :=
  ⟨.double primaryX, .double (primaryYStart + Float.ofNat slot * primaryYStep)⟩

/-- A coordinate moved by a distance; there is none for an integer beyond the doubles. -/
def shifted? (coordinate : Json) (distance : Float) : Option Json :=
  (coordinate.asNumber?.bind Number.toFloat?).map fun start => .double (start + distance)

/-- The place of the branch with an index, beside the condition that holds it. -/
def child? (parent : Position) (index : Nat) : Option Position := do
  let x ← shifted? parent.x checkXOffset
  let y ← shifted? parent.y (Float.ofNat index * checkYStep)
  return ⟨x, y⟩

end OutreachFlow.Layout
