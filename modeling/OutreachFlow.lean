import OutreachFlow.Graph.Form
import OutreachFlow.Json.Writer
import OutreachFlow.Palette
import OutreachFlow.Session.Marked
import OutreachFlow.Service.Basic
import OutreachFlow.Proofs.Import.DerivedIds
import OutreachFlow.Proofs.Import.Unfolding
import OutreachFlow.Proofs.Import.Reading
import OutreachFlow.Proofs.Json.Fields
import OutreachFlow.Proofs.Json.Depth
import OutreachFlow.Proofs.Plan.WrittenForm
import OutreachFlow.Proofs.Graph.Grouping
import OutreachFlow.Proofs.Graph.Lookup
import OutreachFlow.Proofs.Plan.Refolding
import OutreachFlow.Proofs.Plan.Places
import OutreachFlow.Proofs.Plan.RoundTrip
import OutreachFlow.Proofs.Plan.Compiled
import OutreachFlow.Proofs.Rules.Issues
import OutreachFlow.Proofs.Graph.Ownership
import OutreachFlow.Proofs.Plan.Renaming
import OutreachFlow.Proofs.Graph.Kinds
import OutreachFlow.Proofs.Import.Shape
import OutreachFlow.Proofs.Session.Steps
import OutreachFlow.Proofs.Session.Invariant
import OutreachFlow.Proofs.Session.Reimport
import OutreachFlow.Proofs.Rules.Settling
import OutreachFlow.Proofs.Plan.NextSteps
import OutreachFlow.Proofs.Plan.Executable
import OutreachFlow.Proofs.Plan.Recompiling
import OutreachFlow.Proofs.Payload.Meaning
import OutreachFlow.Proofs.Import.Grammar
import OutreachFlow.Proofs.Session.Connectivity
import OutreachFlow.Proofs.Import.Room
import OutreachFlow.Proofs.Import.Telling
import OutreachFlow.Proofs.Session.Atomicity
import OutreachFlow.Proofs.Session.Mirroring
import OutreachFlow.Proofs.Plan.Pruning
import OutreachFlow.Proofs.Plan.Interleaving
import OutreachFlow.Proofs.Session.Settled
import OutreachFlow.Proofs.Rules.Messages
import OutreachFlow.Proofs.Session.ConnectGate
import OutreachFlow.Proofs.Graph.EditorForm
import OutreachFlow.Proofs.Service.PostedGraphs
import OutreachFlow.Proofs.Session.EntryGate
import OutreachFlow.Proofs.Import.Spelling
import OutreachFlow.Proofs.Import.Reordering
import OutreachFlow.Proofs.Store.PlainNames
import OutreachFlow.Proofs.Store.Ledger
import OutreachFlow.Proofs.Store.Holding
import OutreachFlow.Proofs.Store.Listing
import OutreachFlow.Proofs.Store.Refinement
import OutreachFlow.Proofs.Rules.Cycles
import OutreachFlow.Proofs.Service.Effects
import OutreachFlow.Proofs.Service.Answers
import OutreachFlow.Proofs.Text.Quoting
import OutreachFlow.Proofs.Decimal.Written
import OutreachFlow.Proofs.Json.Numbers
import OutreachFlow.Proofs.Json.ReadBack
import OutreachFlow.Proofs.Json.Proper
import OutreachFlow.Proofs.Json.Printed
import OutreachFlow.Proofs.Payload.Shown
import OutreachFlow.Proofs.Service.Forms
import OutreachFlow.Proofs.Service.Bodies
import OutreachFlow.Proofs.Service.SavedFlows
import OutreachFlow.Proofs.Service.StoredGraphs
import OutreachFlow.Proofs.Service.Violations
import OutreachFlow.Proofs.Service.Records
import OutreachFlow.Proofs.Service.KeptFlows
import OutreachFlow.Proofs.Service.Availability
import OutreachFlow.Proofs.Rules.Defects
import OutreachFlow.Proofs.Plan.Coverage
import OutreachFlow.Proofs.Plan.Order
import OutreachFlow.Proofs.Session.Preview
import OutreachFlow.Proofs.Session.Interleaving
import OutreachFlow.Proofs.Session.References
import OutreachFlow.Proofs.Import.Clashes
import OutreachFlow.Proofs.Graph.EditorGrammar
import OutreachFlow.Proofs.Graph.Telling
import OutreachFlow.Proofs.Service.RefusedGraphs
import OutreachFlow.Proofs.Service.Imports
import OutreachFlow.Proofs.Plan.CanvasLayout
import OutreachFlow.Proofs.Store.RecordFiles
import OutreachFlow.Proofs.Store.Journal
import OutreachFlow.Proofs.Store.CreationOrder
import OutreachFlow.Proofs.Payload.Encodings
