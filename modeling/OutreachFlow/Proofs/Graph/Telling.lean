import OutreachFlow.Proofs.Graph.EditorGrammar
import OutreachFlow.Proofs.Json.Proper
import OutreachFlow.Proofs.Payload.Shown

/-! What the messages of graph faults show: an id and a type as they were found, and what a payload fault shows. So
a message can be made where the nodes are not nested too deep, and it has a stand-in only if some node has one. -/
namespace OutreachFlow

namespace Json

/-- Whole documents consist of whole documents. -/
theorem isHereditary_whole : IsHereditary fun value => value.hasStandIn = false where
  null := rfl
  items whole := itemsHaveStandIn_eq_false.mp whole
  fields whole field member := (fieldsHaveStandIn_eq_false.mp whole field member).2

theorem isHereditary_depth_lt {limit : Nat} (some : 0 < limit) : IsHereditary fun value => value.depth < limit := by
  obtain ⟨rest, rfl⟩ := Nat.exists_eq_succ_of_ne_zero (Nat.ne_of_gt some)
  have bounded := isHereditary_depth_le rest
  simpa only [Nat.lt_succ_iff] using bounded

theorem whole_of_told {limit : Nat} {shown : Option Json} {message text : String}
    (whole : Text.hasStandIn message = false) (told : told? limit shown message = some text) :
    Text.hasStandIn text = false := by
  unfold told? at told
  split at told
  · exact Option.some.inj told ▸ whole
  · exact Option.some.inj told ▸ by decide +kernel
  · contradiction

end Json

namespace NodeFault

/-- The property holds of the values that the message of a fault shows. -/
def Shows (holds : Json → Prop) : NodeFault → Prop
  | unknownType id value => holds (.str id) ∧ holds value
  | dataNotObject id => holds (.str id)
  | payload id fault => holds (.str id) ∧ fault.Shows holds
  | _ => True

variable {fault : NodeFault} {limit : Nat}

theorem told?_isSome (flat : fault.Shows fun value => value.depth < limit) : (fault.told? limit).isSome := by
  cases fault with
  | unknownType id value =>
    refine Json.told?_isSome (fun shown printed => ?_) _
    cases value with
    | str text => contradiction
    | _ => exact Option.some.inj printed ▸ flat.2
  | payload id fault =>
    have told := Json.told?_isSome flat.2.value fault.message
    simp only [told?, Option.isSome_map]
    exact told
  | _ => rfl

theorem hasStandIn_named {id text : String} (named : Text.hasStandIn id = false)
    (whole : Text.hasStandIn text = false) : Text.hasStandIn ("node '" ++ id ++ text) = false := by
  simp only [Text.hasStandIn_append, named, whole, Bool.or_false]
  decide +kernel

theorem whole_of_told {text : String} (whole : fault.Shows fun value => value.hasStandIn = false)
    (told : fault.told? limit = some text) : Text.hasStandIn text = false := by
  cases fault with
  | notObject value =>
    obtain rfl := Option.some.inj told
    unfold message
    simp only [Text.hasStandIn_append, Json.hasStandIn_typeName, Bool.or_false]
    decide +kernel
  | withoutId =>
    obtain rfl := Option.some.inj told
    decide +kernel
  | unknownType id value =>
    refine Json.whole_of_told ?_ told
    unfold message unknownTypeText
    simp only [Text.hasStandIn_append, Json.hasStandIn_bare whole.2, show Text.hasStandIn id = false from whole.1,
      Bool.or_false]
    decide +kernel
  | dataNotObject id =>
    obtain rfl := Option.some.inj told
    exact hasStandIn_named whole (by decide +kernel)
  | payload id fault =>
    obtain ⟨inner, inside, rfl⟩ := Option.map_eq_some_iff.mp told
    have own : Text.hasStandIn id = false := whole.1
    have rest := Json.whole_of_told whole.2.whole inside
    simp only [Text.hasStandIn_append, own, rest, Bool.or_false]
    decide +kernel

end NodeFault

/-- The property holds of the values that the message of a fault shows; of an edge it shows none. -/
def GraphFault.Shows (holds : Json → Prop) : GraphFault → Prop
  | node fault => fault.Shows holds
  | duplicateNode id => holds (.str id)
  | edge fault => Text.hasStandIn fault.message = false

namespace GraphFault

variable {fault : GraphFault} {limit : Nat}

theorem told?_isSome (flat : fault.Shows fun value => value.depth < limit) : (fault.told? limit).isSome := by
  cases fault with
  | node fault => exact NodeFault.told?_isSome flat
  | _ => rfl

theorem whole_of_told {text : String} (whole : fault.Shows fun value => value.hasStandIn = false)
    (told : fault.told? limit = some text) : Text.hasStandIn text = false := by
  cases fault with
  | node fault => exact NodeFault.whole_of_told whole told
  | duplicateNode id =>
    obtain rfl := Option.some.inj told
    have own : Text.hasStandIn id = false := whole
    unfold message
    simp only [Text.hasStandIn_append, own, Bool.or_false]
    decide +kernel
  | edge fault =>
    obtain rfl := Option.some.inj told
    exact whole

end GraphFault

/-! Where the values of messages are found -/

section Shown

variable {holds : Json → Prop} (hereditary : Json.IsHereditary holds) {value : Json}
include hereditary

namespace Node

variable {fields data : Fields}

theorem holds_of_idOf? (all : ∀ field ∈ fields, holds field.2) {id : String} (named : idOf? fields = some id) :
    holds (.str id) := by
  have own := hereditary.valueOf all "id"
  unfold idOf? at named
  split at named
  · rename_i text same
    split at named
    · contradiction
    · exact Option.some.inj named ▸ same ▸ own
  · contradiction

theorem holds_of_dataOf? (all : ∀ field ∈ fields, holds field.2) (has : dataOf? fields = some data) :
    ∀ field ∈ data, holds field.2 := by
  have own := hereditary.valueOf all "data"
  unfold dataOf? at has
  dsimp only at has
  split at has
  · obtain rfl := Option.some.inj has
    simp
  · cases same : fields.valueOf "data" with
    | obj inner =>
      rw [same] at has own
      exact Option.some.inj has ▸ hereditary.fields own
    | _ =>
      rw [same] at has
      contradiction

theorem shown_of_ofFields {fault : NodeFault} (all : ∀ field ∈ fields, holds field.2)
    (fails : ofFields fields = .error fault) : fault.Shows holds := by
  unfold ofFields at fails
  cases named : idOf? fields with
  | none =>
    simp only [named] at fails
    exact Except.error.inj fails ▸ trivial
  | some id =>
    have bare := holds_of_idOf? hereditary all named
    simp only [named] at fails
    split at fails
    · rename_i kind _
      cases has : dataOf? fields with
      | none =>
        simp only [has] at fails
        exact Except.error.inj fails ▸ bare
      | some data =>
        simp only [has] at fails
        rcases bind_eq_error.mp fails with unfit | ⟨_, _, done⟩
        · obtain ⟨cause, wrong, rfl⟩ := mapError_eq_error.mp unfit
          exact ⟨bare, Payload.shown_of_ofData hereditary (holds_of_dataOf? hereditary all has) wrong⟩
        · contradiction
    · obtain rfl := Except.error.inj fails
      exact ⟨bare, hereditary.valueOf all "type"⟩

theorem shown_of_ofJson {fault : NodeFault} (whole : holds value) (fails : ofJson value = .error fault) :
    fault.Shows holds := by
  cases value with
  | obj fields => exact shown_of_ofFields hereditary (hereditary.fields whole) fails
  | _ => exact Except.error.inj fails ▸ trivial

/-- A node keeps the id that was found. -/
theorem holds_of_ofJson {node : Node} (whole : holds value) (read : ofJson value = .ok node) :
    holds (.str node.id) := by
  obtain ⟨fields, rfl, same⟩ := id_of_ofJson read
  exact same ▸ hereditary.valueOf (hereditary.fields whole) "id"

end Node

end Shown

theorem Edge.hasStandIn_message {value : Json} {fault : EdgeFault} (fails : ofJson value = .error fault) :
    Text.hasStandIn fault.message = false := by
  have missing {fields : Fields} {key : String} {fault : EdgeFault} (plain : Text.hasStandIn key = false)
      (fails : textOf fields key = .error fault) : Text.hasStandIn fault.message = false := by
    unfold textOf at fails
    split at fails
    · contradiction
    · obtain rfl := Except.error.inj fails
      unfold EdgeFault.message
      simp only [Text.hasStandIn_append, plain, Bool.or_false]
      decide +kernel
  cases value with
  | obj fields =>
    rcases bind_eq_error.mp fails with id | ⟨_, _, fails⟩
    · exact missing (by decide +kernel) id
    · rcases bind_eq_error.mp fails with source | ⟨_, _, fails⟩
      · exact missing (by decide +kernel) source
      · rcases bind_eq_error.mp fails with target | ⟨_, _, done⟩
        · exact missing (by decide +kernel) target
        · contradiction
  | _ =>
    obtain rfl := Except.error.inj fails
    unfold EdgeFault.message
    simp only [Text.hasStandIn_append, Json.hasStandIn_typeName, Bool.or_false]
    decide +kernel

namespace Graph

variable {nodes edges : List Json} {fault : GraphFault}

/-- A list of nodes stops at one of them, or at an id that is known. -/
theorem readNodes_eq_error {known : List Node} (fails : readNodes known nodes = .error fault) :
    ∃ value ∈ nodes, (∃ cause, Node.ofJson value = .error cause ∧ fault = .node cause) ∨
      ∃ node, Node.ofJson value = .ok node ∧ fault = .duplicateNode node.id := by
  induction nodes generalizing known with
  | nil => contradiction
  | cons value rest ih =>
    rcases bind_eq_error.mp fails with here | ⟨node, read, fails⟩
    · obtain ⟨cause, wrong, rfl⟩ := mapError_eq_error.mp here
      exact ⟨value, List.mem_cons_self, .inl ⟨cause, wrong, rfl⟩⟩
    · split at fails
      · exact ⟨value, List.mem_cons_self, .inr ⟨node, mapError_eq_ok.mp read, (Except.error.inj fails).symm⟩⟩
      · obtain ⟨other, inside, stops⟩ := ih fails
        exact ⟨other, List.mem_cons_of_mem _ inside, stops⟩

/-- What the message shows is found in one of the nodes. -/
theorem shown_of_ofLists (fails : ofLists nodes edges = .error fault) :
    (∃ value ∈ nodes, ∀ holds : Json → Prop, Json.IsHereditary holds → holds value → fault.Shows holds) ∨
      ∃ cause, fault = .edge cause ∧ Text.hasStandIn cause.message = false := by
  rcases bind_eq_error.mp fails with stops | ⟨_, _, fails⟩
  · obtain ⟨value, inside, ⟨cause, wrong, rfl⟩ | ⟨node, read, rfl⟩⟩ := readNodes_eq_error stops
    · exact .inl ⟨value, inside, fun _ hereditary whole => Node.shown_of_ofJson hereditary whole wrong⟩
    · exact .inl ⟨value, inside, fun _ hereditary whole => Node.holds_of_ofJson hereditary whole read⟩
  · rcases bind_eq_error.mp fails with stops | ⟨_, _, done⟩
    · obtain ⟨value, _, stops⟩ := mem_of_mapM_eq_error stops
      obtain ⟨cause, wrong, rfl⟩ := mapError_eq_error.mp stops
      exact .inr ⟨cause, rfl, Edge.hasStandIn_message wrong⟩
    · contradiction

/-- What is wrong with lists can be told if no node is nested as deep as there are levels left. -/
theorem exists_told {limit : Nat} (flat : ∀ value ∈ nodes, value.depth < limit)
    (fails : ofLists nodes edges = .error fault) : ∃ text, fault.told? limit = some text := by
  rcases shown_of_ofLists fails with ⟨value, inside, shows⟩ | ⟨cause, rfl, _⟩
  · have some := Nat.zero_lt_of_lt (flat value inside)
    exact Option.isSome_iff_exists.mp
      (GraphFault.told?_isSome (shows _ (Json.isHereditary_depth_lt some) (flat value inside)))
  · exact ⟨_, rfl⟩

/-- What is told of lists without stand-ins has none. -/
theorem whole_of_told {limit : Nat} {text : String} (whole : ∀ value ∈ nodes, value.hasStandIn = false)
    (fails : ofLists nodes edges = .error fault) (told : fault.told? limit = some text) :
    Text.hasStandIn text = false := by
  refine GraphFault.whole_of_told ?_ told
  rcases shown_of_ofLists fails with ⟨value, inside, shows⟩ | ⟨cause, rfl, clean⟩
  · exact shows _ Json.isHereditary_whole (whole value inside)
  · exact clean

end Graph

end OutreachFlow
