import OutreachFlow.Proofs.Graph.Lookup
import OutreachFlow.Proofs.Plan.WrittenForm

/-! Saved positions. A plan saves every position, but only those with two numbers are taken up
again; imported nodes all stand at such positions. A descriptor whose places are all saved unfolds
to the same nodes in whichever slot it comes. -/
namespace OutreachFlow

/-- A position that can be saved: both coordinates count as numbers. -/
def Position.IsNumeric (position : Position) : Prop :=
  position.x.isNumeric = true ∧ position.y.isNumeric = true

theorem savedPosition?_eq_some {saved : Fields} {id : String} {position : Position} :
    savedPosition? saved id = some position ↔
      ∃ fields, saved.get? id = some (.obj fields) ∧ position.IsNumeric ∧
        (⟨Fields.valueOf fields "x", Fields.valueOf fields "y"⟩ : Position) = position := by
  unfold savedPosition? Fields.valueOf
  cases found : saved.get? id with
  | none => simp
  | some value =>
    cases value with
    | obj fields =>
      simp only [Option.getD_some, Option.ite_none_right_eq_some, Option.some.injEq, Json.obj.injEq]
      constructor
      · rintro ⟨numeric, rfl⟩
        exact ⟨fields, rfl, numeric, rfl⟩
      · rintro ⟨_, rfl, numeric, rfl⟩
        exact ⟨numeric, rfl⟩
    | _ => simp

theorem numeric_of_savedPosition? {saved : Fields} {id : String} {position : Position}
    (found : savedPosition? saved id = some position) : position.IsNumeric := by
  obtain ⟨_, _, numeric, _⟩ := savedPosition?_eq_some.mp found
  exact numeric

/-! Places in the layout -/

theorem Json.double_numeric (value : Float) : (double value).isNumeric = true := rfl

theorem Position.origin_numeric : Position.origin.IsNumeric :=
  ⟨Json.double_numeric _, Json.double_numeric _⟩

theorem Layout.primary_numeric (slot : Nat) : (primary slot).IsNumeric :=
  ⟨Json.double_numeric _, Json.double_numeric _⟩

theorem Layout.child?_numeric {parent position : Position} {index : Nat}
    (found : child? parent index = some position) : position.IsNumeric := by
  simp only [child?, shifted?, pure, Option.bind_eq_bind, Option.bind_eq_some_iff,
    Option.map_eq_some_iff, Option.some.injEq] at found
  obtain ⟨_, ⟨_, _, rfl⟩, _, ⟨_, _, rfl⟩, rfl⟩ := found
  exact ⟨Json.double_numeric _, Json.double_numeric _⟩

/-! Compiled positions -/

/-- Compiling saves a position for every node, which is found again if it is numeric. -/
theorem savedPosition?_compile {graph : Graph} {entry : Option String} {id : String}
    {position : Position} (unique : graph.UniqueIds) :
    savedPosition? (graph.compile entry).saved id = some position ↔
      ∃ node ∈ graph.nodes, node.id = id ∧ node.position = position ∧ position.IsNumeric := by
  have written : (graph.compile entry).saved =
      graph.nodes.map fun node => (node.id, node.position.toJson) := by
    simp [Plan.saved, Graph.compile]
  have distinct : ((graph.compile entry).saved.map Prod.fst).Nodup := by
    rw [written, List.map_map]
    exact unique
  rw [savedPosition?_eq_some]
  constructor
  · rintro ⟨fields, found, numeric, rfl⟩
    obtain ⟨field, chosen, same⟩ := Option.map_eq_some_iff.mp found
    have inside := List.mem_of_find?_eq_some chosen
    have key : field.1 = id := by simpa using List.find?_some chosen
    rw [written] at inside
    obtain ⟨node, member, rfl⟩ := List.mem_map.mp inside
    obtain rfl := Json.obj.inj same
    exact ⟨node, member, key, by simp [Fields.valueOf], numeric⟩
  · rintro ⟨node, member, rfl, rfl, numeric⟩
    have inside : (node.id, node.position.toJson) ∈ (graph.compile entry).saved := by
      rw [written]
      exact List.mem_map.mpr ⟨node, member, rfl⟩
    exact ⟨_, Fields.get?_of_mem distinct inside, numeric, by simp [Fields.valueOf]⟩

/-! Places beside a condition -/

/-- No coordinate is an integer beyond the doubles. -/
def Position.FitsDoubles (position : Position) : Prop :=
  ∀ integer, position.x = .int integer ∨ position.y = .int integer →
    (Number.floatOfInt? integer).isSome

theorem Layout.shifted?_isSome {coordinate : Json} {distance : Float}
    (numeric : coordinate.isNumeric = true) :
    (shifted? coordinate distance).isSome ↔
      ∀ integer, coordinate = .int integer → (Number.floatOfInt? integer).isSome := by
  have truth : ∀ value : Bool, (Number.floatOfInt? (if value then 1 else 0)).isSome := by
    decide +kernel
  cases coordinate with
  | bool value => simp [shifted?, Json.asNumber?, Number.toFloat?, Json.int, truth value]
  | num value => cases value <;> simp [shifted?, Json.asNumber?, Number.toFloat?, Json.int]
  | _ => contradiction

theorem Layout.child?_isSome {parent : Position} {index : Nat} (numeric : parent.IsNumeric) :
    (child? parent index).isSome ↔ parent.FitsDoubles := by
  have both : (child? parent index).isSome ↔ (shifted? parent.x checkXOffset).isSome ∧
      (shifted? parent.y (Float.ofNat index * checkYStep)).isSome := by
    unfold child?
    cases shifted? parent.x checkXOffset <;>
      cases shifted? parent.y (Float.ofNat index * checkYStep) <;> simp
  rw [both, shifted?_isSome numeric.1, shifted?_isSome numeric.2]
  constructor
  · rintro ⟨left, right⟩ integer (same | same)
    · exact left integer same
    · exact right integer same
  · intro fits
    exact ⟨fun integer same => fits integer (.inl same), fun integer same => fits integer (.inr same)⟩

theorem Position.doubles_fit (x y : Float) : (⟨.double x, .double y⟩ : Position).FitsDoubles := by
  rintro integer (same | same) <;> exact absurd same (by simp [Json.double, Json.int])

/-- A compiled branch has a place beside its condition, unless the condition is out of reach and
no node brings a place under the branch's id. -/
theorem branchPlaced_compile {graph : Graph} {entry : Option String} {condition : Node}
    {slot index : Nat} (unique : graph.UniqueIds) (member : condition ∈ graph.nodes) :
    BranchPlaced (graph.compile entry).saved condition.id
        (primaryPosition (graph.compile entry).saved condition.id slot) index ↔
      (condition.position.IsNumeric → condition.position.FitsDoubles) ∨
        ∃ node ∈ graph.nodes, node.id = checkNodeId condition.id index ∧
          node.position.IsNumeric := by
  have saved : (savedPosition? (graph.compile entry).saved (checkNodeId condition.id index)).isSome ↔
      ∃ node ∈ graph.nodes, node.id = checkNodeId condition.id index ∧ node.position.IsNumeric := by
    simp only [Option.isSome_iff_exists, savedPosition?_compile unique]
    constructor
    · rintro ⟨_, node, member, same, rfl, numeric⟩
      exact ⟨node, member, same, numeric⟩
    · rintro ⟨node, member, same, numeric⟩
      exact ⟨_, node, member, same, rfl, numeric⟩
  have beside : (Layout.child? (primaryPosition (graph.compile entry).saved condition.id slot)
      index).isSome ↔ (condition.position.IsNumeric → condition.position.FitsDoubles) := by
    unfold primaryPosition
    by_cases numeric : condition.position.IsNumeric
    · have kept : savedPosition? (graph.compile entry).saved condition.id = some condition.position :=
        (savedPosition?_compile unique).mpr ⟨condition, member, rfl, rfl, numeric⟩
      rw [kept, Option.getD_some, Layout.child?_isSome numeric]
      simp [numeric]
    · have lost : savedPosition? (graph.compile entry).saved condition.id = none := by
        rw [Option.eq_none_iff_forall_ne_some]
        intro position found
        obtain ⟨node, inside, same, rfl, stands⟩ := (savedPosition?_compile unique).mp found
        exact numeric (Graph.eq_of_id unique inside member same ▸ stands)
      rw [lost, Option.getD_none, Layout.child?_isSome (Layout.primary_numeric slot)]
      simp [numeric, Layout.primary, Position.doubles_fit]
  rw [BranchPlaced, saved, beside, or_comm]

/-! Unfolded positions -/

theorem primaryPosition_numeric (saved : Fields) (id : String) (slot : Nat) :
    (primaryPosition saved id slot).IsNumeric := by
  unfold primaryPosition
  cases found : savedPosition? saved id with
  | none => exact Layout.primary_numeric slot
  | some position => exact numeric_of_savedPosition? found

theorem branchPosition_numeric (saved : Fields) (condition : String) (parent : Position)
    (index : Nat) : (branchPosition saved condition parent index).IsNumeric := by
  unfold branchPosition
  cases found : savedPosition? saved (checkNodeId condition index) with
  | some position => exact numeric_of_savedPosition? found
  | none =>
    cases beside : Layout.child? parent index with
    | none => exact Position.origin_numeric
    | some position => exact Layout.child?_numeric beside

theorem unfoldedNodes_numeric {saved : Fields} {slot : Nat} {descriptors : List Descriptor}
    {node : Node} (member : node ∈ unfoldedNodes saved slot descriptors) :
    node.position.IsNumeric := by
  obtain ⟨entry, _, member⟩ := List.mem_flatMap.mp member
  rcases List.mem_cons.mp member with rfl | branch
  · exact primaryPosition_numeric _ _ _
  · obtain ⟨_, _, rfl⟩ := List.mem_map.mp branch
    exact branchPosition_numeric _ _ _ _

/-! Settled places -/

/-- The places of all nodes of a list are saved. -/
def Settles (saved : Fields) (nodes : List Node) : Prop :=
  ∀ node ∈ nodes, savedPosition? saved node.id = some node.position

theorem Branch.node_of_settled {before saved : Fields} {condition : String}
    {parent parent' : Position} {entry : Branch × Nat}
    (settled : savedPosition? saved (checkNodeId condition entry.2) =
      some (branchPosition before condition parent entry.2)) :
    entry.1.node saved condition parent' entry.2 = entry.1.node before condition parent entry.2 := by
  have place : branchPosition saved condition parent' entry.2 =
      branchPosition before condition parent entry.2 := by
    rw [branchPosition, settled, Option.getD_some]
  rw [node, node, place]

namespace Descriptor

variable {before saved : Fields} {slot slot' : Nat} {descriptor : Descriptor}

/-- Where all places are saved, neither the slot nor the layout matters. -/
theorem nodes_of_settled (settled : Settles saved (descriptor.nodes before slot)) :
    descriptor.nodes saved slot' = descriptor.nodes before slot := by
  have own : descriptor.primary saved slot' = descriptor.primary before slot := by
    have place : savedPosition? saved descriptor.id =
        some (primaryPosition before descriptor.id slot) := settled _ List.mem_cons_self
    have stands : primaryPosition saved descriptor.id slot' =
        primaryPosition before descriptor.id slot := by
      rw [primaryPosition, place, Option.getD_some]
    rw [primary, primary, stands]
  have guards : descriptor.branchNodes saved slot' = descriptor.branchNodes before slot := by
    apply List.map_congr_left
    intro entry inside
    exact Branch.node_of_settled
      (settled _ (List.mem_cons_of_mem _ (List.mem_map_of_mem inside)))
  rw [nodes, own, guards, nodes]

theorem placed_of_settled (settled : Settles saved (descriptor.nodes before slot)) :
    descriptor.Placed saved slot' := by
  intro entry inside
  have place := settled _ (List.mem_cons_of_mem _ (List.mem_map_of_mem inside))
  exact .inl (Option.isSome_iff_exists.mpr ⟨_, place⟩)

end Descriptor

end OutreachFlow
