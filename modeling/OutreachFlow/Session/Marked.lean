import OutreachFlow.Session.Command

/-! Workspaces whose session may start under an entry that is no text. Such a mark can name no
node. It stands until a command puts an entry or none in its place, and counts only in the lint,
which reports it or, where it is a list or an object, cannot be carried out. -/
namespace OutreachFlow

structure MarkedWorkspace where
  workspace : Workspace
  /-- The mark, as long as it stands. -/
  mark : Option Json

/-- Whether a command gives the session a new entry or none. -/
def Command.replacesEntry : Command → Bool
  | .setEntry _ | .clearEntry | .reset | .importPlan _ | .reimport => true
  | _ => false

namespace MarkedWorkspace

/-- A workspace on a graph under an entry that may be any document. -/
def start (graph : Graph) (ids : Supply) : Json → MarkedWorkspace
  | .null => ⟨⟨⟨graph, none⟩, ids⟩, none⟩
  | .str entry => ⟨⟨⟨graph, some entry⟩, ids⟩, none⟩
  | mark => ⟨⟨⟨graph, none⟩, ids⟩, some mark⟩

def entry (marked : MarkedWorkspace) : Json :=
  marked.mark.getD ((marked.workspace.session.entry.map .str).getD .null)

/-- Carries out a command that the mark does not bear on. -/
def runUnmarked (marked : MarkedWorkspace) (command : Command) :
    MarkedWorkspace × Except SessionFault Answer :=
  let (workspace, answer) := marked.workspace.run command
  let replaced := command.replacesEntry && answer.toOption.isSome
  (⟨workspace, if replaced then none else marked.mark⟩, answer)

/-- The answer to a command that needs the lint, from the issues found under a mark. -/
def lintAnswer? : Command → Option (List Issue → Except SessionFault Answer)
  | .issues => some fun issues => .ok (.issues issues)
  | .exportPlan true => some fun issues => .error (.invalidGraph ⟨issues⟩)
  | _ => none

/-- Carries out a command; there is no answer where the lint cannot be carried out. -/
def run (marked : MarkedWorkspace) (command : Command) :
    MarkedWorkspace × Option (Except SessionFault Answer) :=
  match marked.mark, lintAnswer? command with
  | some mark, some answer =>
    (marked, (marked.workspace.session.graph.issuesUnder? mark).map answer)
  | _, _ => (marked.runUnmarked command).map id some

end MarkedWorkspace

end OutreachFlow
