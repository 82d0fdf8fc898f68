import OutreachFlow.Proofs.Import.Grammar
import OutreachFlow.Proofs.Session.Settled

/-! References of an imported form. A descriptor refers to other nodes by its next steps, and a condition to
the checks of its branches, which have no descriptors of their own. An import turns each reference into one
edge, whether its target came before, comes later or never, and a session then leaves out the edges that it
could not have made itself: those into its entry, and those to nowhere, which are reported. -/
namespace OutreachFlow

/-! The references of a form -/

namespace Fields

/-- The step that fields name; an empty text names none. -/
def namedStep? (fields : Fields) : Option String :=
  match fields.valueOf "nextStepId" with
  | .str step => if step = "" then none else some step
  | _ => none

/-- The step behind an action: the one that its child names, or else the one beside the child. -/
def actionStep? (descriptor : Fields) : Option String :=
  match descriptor.valueOf "child" with
  | .obj child => (namedStep? child).or descriptor.namedStep?
  | _ => descriptor.namedStep?

end Fields

namespace Json

/-- What a branch refers to: the condition to its check, and the check to the step behind it. -/
def branchReferences (condition : String) (index : Nat) : Json → List (String × String)
  | .obj branch => (condition, checkNodeId condition index) ::
      (Fields.namedStep? branch).toList.map fun step => (checkNodeId condition index, step)
  | _ => []

end Json

/-- What a descriptor of a kind refers to, as pairs of the node that refers and the one that is referred to. -/
def Fields.referencesAs (descriptor : Fields) (id : String) : NodeKind → List (String × String)
  | .action => descriptor.actionStep?.toList.map fun step => (id, step)
  | .condition =>
    descriptor.branchForms.zipIdx.flatMap fun entry => entry.1.branchReferences id entry.2
  | .conditionCheck => descriptor.namedStep?.toList.map fun step => (id, step)

/-- What a descriptor refers to, nothing where there is no id or no kind. -/
def Json.references : Json → List (String × String)
  | .obj descriptor =>
    match Node.idOf? descriptor, NodeKind.ofTagValue? (Fields.valueOf descriptor "type") with
    | some id, some kind => Fields.referencesAs descriptor id kind
    | _, _ => []
  | _ => []

/-- An edge as a warning that its target is missing. -/
def Edge.warning (edge : Edge) : Warning := ⟨edge.source, edge.target⟩

/-- A flow has one edge for each reference of its descriptors, in their order, which leaves a node of the flow;
and it has one warning for each edge that leads nowhere, in the order of the edges. -/
structure Flow.AccountsFor (flow : Flow) (descriptors : List Json) : Prop where
  links : flow.toGraph.links = descriptors.flatMap Json.references
  sources : ∀ edge ∈ flow.edges, flow.toGraph.has edge.source = true
  warnings : flow.warnings =
    (flow.edges.filter fun edge => flow.toGraph.has edge.target = false).map Edge.warning
  once : flow.warnings.Nodup

/-- A session keeps the edges of a flow in their order, but for those into the entry and those with a warning.
No edge is left out for both reasons, and none that leaves a condition is left out. -/
structure Session.KeepsEdges (session : Session) (flow : Flow) : Prop where
  entry : session.entry = some flow.entry
  kept : session.graph.edges =
    flow.edges.filter fun edge => edge.target ≠ flow.entry ∧ edge.warning ∉ flow.warnings
  apart : ∀ edge ∈ flow.edges, ¬ (edge.target = flow.entry ∧ edge.warning ∈ flow.warnings)
  branches : ∀ edge ∈ flow.edges, flow.toGraph.isCondition edge.source = true →
    edge ∈ session.graph.edges

/-! Reading references -/

section Reading

variable {fields : Fields} {next : Option String} {value : Json} {descriptor : Descriptor}

theorem Source.namedStep?_of_nextStep (read : nextStep fields = .ok next) : fields.namedStep? = next := by
  unfold nextStep at read
  unfold Fields.namedStep?
  cases stated : fields.valueOf "nextStepId" <;> simp_all

theorem Source.actionStep?_of_actionNext (read : actionNext fields = .ok next) :
    fields.actionStep? = next := by
  obtain ⟨first, readFirst, rest⟩ := bind_eq_ok.mp read
  have own := namedStep?_of_nextStep readFirst
  rcases actionRecord_cases fields with ⟨child, inside, same⟩ | ⟨childless, same⟩ <;> rw [same] at own
  · cases first with
    | some step =>
      obtain rfl := Except.ok.inj rest
      simp [Fields.actionStep?, inside, own]
    | none => simp [Fields.actionStep?, inside, own, namedStep?_of_nextStep rest]
  · have flat : fields.actionStep? = fields.namedStep? := by
      unfold Fields.actionStep?
      split
      · rename_i child inside
        exact absurd inside (childless child)
      · rfl
    cases first with
    | some step =>
      obtain rfl := Except.ok.inj rest
      rw [flat, own]
    | none => rw [flat, namedStep?_of_nextStep rest]

theorem Branch.references_of_read {condition : String} {index : Nat} {branch : Branch}
    (read : read? value = some branch) : value.branchReferences condition index =
      branch.links condition index := by
  cases value with
  | obj fields =>
    simp only [read?, pure, Option.bind_eq_bind, Option.bind_eq_some_iff, toOption_eq_some,
      Option.some.injEq] at read
    obtain ⟨checks, _, next, readNext, rfl⟩ := read
    rw [Json.branchReferences, Source.namedStep?_of_nextStep readNext]
    rfl
  | _ => contradiction

theorem Branch.references_of_mapM {condition : String} {values : List Json} {branches : List Branch}
    (read : values.mapM read? = some branches) (index : Nat) :
    ((values.zipIdx index).flatMap fun entry => entry.1.branchReferences condition entry.2) =
      (branches.zipIdx index).flatMap fun entry => entry.1.links condition entry.2 := by
  rw [mapM_eq_some] at read
  induction read generalizing index with
  | nil => rfl
  | cons found _ ih => simp only [List.zipIdx_cons, List.flatMap_cons, references_of_read found, ih]

theorem Descriptor.references_of_readAs {id : String} {kind : NodeKind} (tag : fields.HasTag kind)
    (read : readAs? id fields kind = some descriptor) : fields.referencesAs id kind = descriptor.links := by
  cases kind <;> simp only [readAs?, pure, Option.bind_eq_bind, Option.bind_eq_some_iff,
    toOption_eq_some, Option.some.injEq] at read
  case action =>
    obtain ⟨step, _, next, readNext, rfl⟩ := read
    rw [Fields.referencesAs, Source.actionStep?_of_actionNext readNext]
    exact (List.append_nil _).symm
  case condition =>
    obtain ⟨written, readWritten, branches, readBranches, rfl⟩ := read
    rw [Fields.referencesAs, branchForms_of_read readWritten tag, Branch.references_of_mapM readBranches]
    rfl
  case conditionCheck =>
    obtain ⟨checks, _, next, readNext, rfl⟩ := read
    rw [Fields.referencesAs, Source.namedStep?_of_nextStep readNext]
    exact (List.append_nil _).symm

theorem Descriptor.references_of_read (read : read? value = some descriptor) :
    value.references = descriptor.links := by
  cases value with
  | obj fields =>
    simp only [read?, Option.bind_eq_bind, Option.bind_eq_some_iff] at read
    obtain ⟨id, named, kind, tagged, read⟩ := read
    simp only [Json.references, named, tagged]
    exact references_of_readAs (NodeKind.ofTagValue?_eq_some.mp tagged) read
  | _ => contradiction

theorem references_of_mapM {values : List Json} {descriptors : List Descriptor}
    (read : values.mapM Descriptor.read? = some descriptors) :
    values.flatMap Json.references = unfoldedLinks descriptors :=
  flatMap_of_mapM (fun _ _ => Descriptor.references_of_read) read

end Reading

/-! Edges and warnings -/

namespace Flow

variable {flow : Flow} {values : List Json} {edge : Edge}

theorem warnings_ofDraft (draft : Draft) (entry : String) :
    (ofDraft draft entry).warnings =
      ((ofDraft draft entry).edges.filter fun edge =>
        (ofDraft draft entry).toGraph.has edge.target = false).map Edge.warning := by
  have dangling : danglingEdges draft = draft.edges.filter fun edge => draft.has edge.target = false := by
    apply List.filter_congr
    intro edge _
    cases draft.has edge.target <;> rfl
  rw [ofDraft, dangling]
  rfl

/-- Whether an edge has a warning is a matter of its own target, also where edges are parallel. -/
theorem AccountsFor.warning_mem (accounts : flow.AccountsFor values) (member : edge ∈ flow.edges) :
    edge.warning ∈ flow.warnings ↔ flow.toGraph.has edge.target = false := by
  rw [accounts.warnings, List.mem_map]
  constructor
  · rintro ⟨other, dangling, same⟩
    have target : other.target = edge.target := congrArg Warning.nextStep same
    exact target ▸ of_decide_eq_true (List.mem_filter.mp dangling).2
  · intro missing
    exact ⟨edge, List.mem_filter.mpr ⟨member, decide_eq_true missing⟩, rfl⟩

end Flow

section Unfolded

variable {saved : Fields} {values : List Json} {descriptors : List Descriptor}

theorem has_unfold_entry (unfoldable : Unfoldable saved descriptors) :
    (Flow.unfold saved descriptors).toGraph.has (Flow.unfold saved descriptors).entry = true := by
  obtain ⟨first, rest, rfl, _⟩ := unfoldable.eq_cons
  exact has_unfold.mpr (List.mem_append_left _ List.mem_cons_self)

theorem unfold_accountsFor (unfoldable : Unfoldable saved descriptors)
    (read : values.mapM Descriptor.read? = some descriptors) :
    (Flow.unfold saved descriptors).AccountsFor values where
  links := by rw [unfold_links, references_of_mapM read]
  sources edge member := by
    have link : (edge.source, edge.target) ∈ unfoldedLinks descriptors := by
      rw [← unfold_links saved descriptors]
      exact List.mem_map_of_mem member
    exact has_unfold.mpr (source_mem_unfoldedIds link)
  warnings := Flow.warnings_ofDraft _ _
  once := by
    have links : (Flow.unfold saved descriptors).toGraph.links.Nodup := unfold_links_nodup unfoldable.distinct
    rw [unfold_links] at links
    rw [unfold_warnings]
    refine (links.filter _).map ?_
    rintro ⟨source, target⟩ ⟨source', target'⟩ same
    exact Prod.ext (congrArg Warning.node same) (congrArg Warning.nextStep same)

theorem unfold_keepsEdges (unfoldable : Unfoldable saved descriptors)
    (read : values.mapM Descriptor.read? = some descriptors) :
    Session.KeepsEdges
      ⟨Session.cleaned (Flow.unfold saved descriptors), some (Flow.unfold saved descriptors).entry⟩
      (Flow.unfold saved descriptors) where
  entry := rfl
  kept := by
    apply List.filter_congr
    intro edge member
    rw [decide_eq_decide, (unfold_accountsFor unfoldable read).warning_mem member, Bool.not_eq_false]
  apart := by
    rintro edge member ⟨into, warned⟩
    have missing := ((unfold_accountsFor unfoldable read).warning_mem member).mp warned
    rw [into, has_unfold_entry unfoldable] at missing
    contradiction
  branches := by
    intro edge member condition
    obtain ⟨descriptor, listed, branch⟩ :=
      branch_of_link unfoldable.distinct (List.mem_map_of_mem member) condition
    rw [cleaned_unfold_edges unfoldable]
    exact List.mem_filter.mpr ⟨member, mayFollow_branch unfoldable.distinct listed branch⟩

end Unfolded

/-- An import accounts for every reference: none is lost, none is made up and none is reported twice. The flow
has an edge for each of them, the session keeps those edges that lead to a node other than its entry, and the
warnings are about the ones that lead nowhere. -/
theorem importPlan_accounts {form : Json} {flow : Flow} (imported : Flow.ofJson form = .ok flow) :
    ∃ values saved session, form.Lists values saved ∧ flow.AccountsFor values ∧
      Session.importPlan form = .ok (session, flow.warnings) ∧ session.KeepsEdges flow := by
  obtain ⟨values, saved, descriptors, unwrapped, read, unfoldable, rfl⟩ := Flow.ofJson_eq_ok.mp imported
  refine ⟨values, saved, _, Flow.unwrap_eq_ok.mp unwrapped, unfold_accountsFor unfoldable read, ?_,
    unfold_keepsEdges unfoldable read⟩
  exact Session.importPlan_eq_ok.mpr ⟨_, imported, rfl, rfl⟩

/-- Descriptors that refer forward to a check that is made up, back to the entry, to nowhere and to themselves;
the last one names its next step beside its child. -/
def tangledForm : Json := .arr
  [.obj [("id", .str "tell"), ("type", .str "ACTION"), ("action", .str "SEND_MESSAGE"),
      ("provider", .str "NOVA"), ("nextStepId", .str "ask-check-0")],
    .obj [("id", .str "ask"), ("type", .str "CONDITION"),
      ("child", .arr [.obj [("nextStepId", .str "tell")], .obj [("nextStepId", .str "gone")], .obj []])],
    .obj [("id", .str "late"), ("type", .str "CONDITION_CHECK"), ("nextStepId", .str "late")],
    .obj [("id", .str "add"), ("type", .str "ACTION"), ("nextStepId", .str "ask"),
      ("child", .obj [("actions", .arr []), ("nextStepId", .str "")])]]

theorem importPlan_accounts_tangled :
    ∃ flow, Flow.ofJson tangledForm = .ok flow ∧ flow.warnings = [⟨"ask-check-1", "gone"⟩] ∧
      ∃ values saved session, tangledForm.Lists values saved ∧ flow.AccountsFor values ∧
        Session.importPlan tangledForm = .ok (session, flow.warnings) ∧ session.KeepsEdges flow := by
  have read : (Flow.ofJson tangledForm).toOption.map Flow.warnings = some [⟨"ask-check-1", "gone"⟩] := by
    decide +kernel
  obtain ⟨flow, found, warnings⟩ := Option.map_eq_some_iff.mp read
  have imported := toOption_eq_some.mp found
  exact ⟨flow, imported, warnings, importPlan_accounts imported⟩

end OutreachFlow
