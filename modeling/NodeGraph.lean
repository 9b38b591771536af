import NodeGraph.Binary64.Basic
import NodeGraph.Binary64.Layout
import NodeGraph.Binary64.Rounding
import NodeGraph.Binary64.Shortest
import NodeGraph.Command.Arguments
import NodeGraph.Command.Run
import NodeGraph.Diagnostic
import NodeGraph.Document.Canonical
import NodeGraph.Document.Graph
import NodeGraph.Document.Malformed
import NodeGraph.Document.Node
import NodeGraph.Document.Number
import NodeGraph.Document.Payload
import NodeGraph.Document.Reader
import NodeGraph.Document.Skip
import NodeGraph.Document.Value
import NodeGraph.Drawing
import NodeGraph.Fault
import NodeGraph.Graph
import NodeGraph.Listing
import NodeGraph.Lowering.Context
import NodeGraph.Lowering.Expr
import NodeGraph.Lowering.Literal
import NodeGraph.Lowering.Rule
import NodeGraph.Main
import NodeGraph.Node
import NodeGraph.Operator
import NodeGraph.Primitive
import NodeGraph.Procedure
import NodeGraph.Proofs.Appending
import NodeGraph.Proofs.Cycles
import NodeGraph.Proofs.Drawing
import NodeGraph.Proofs.Entries
import NodeGraph.Proofs.Extents
import NodeGraph.Proofs.FaultWitnesses
import NodeGraph.Proofs.FreshIds
import NodeGraph.Proofs.Hygiene
import NodeGraph.Proofs.Imports
import NodeGraph.Proofs.Labels
import NodeGraph.Proofs.LiteralForms
import NodeGraph.Proofs.Literals
import NodeGraph.Proofs.Liveness
import NodeGraph.Proofs.Loading
import NodeGraph.Proofs.Meaning
import NodeGraph.Proofs.MemberOrder
import NodeGraph.Proofs.NumberTexts
import NodeGraph.Proofs.Numerals
import NodeGraph.Proofs.Order
import NodeGraph.Proofs.Phases
import NodeGraph.Proofs.Pieces
import NodeGraph.Proofs.Provenance
import NodeGraph.Proofs.Reading
import NodeGraph.Proofs.Renaming
import NodeGraph.Proofs.Runs
import NodeGraph.Proofs.Scanning
import NodeGraph.Proofs.Shortest
import NodeGraph.Proofs.SingleAssignment
import NodeGraph.Proofs.Skipping
import NodeGraph.Proofs.SourceLines
import NodeGraph.Proofs.StandIns
import NodeGraph.Proofs.Steps
import NodeGraph.Proofs.StoppedRequests
import NodeGraph.Proofs.StoredOrder
import NodeGraph.Proofs.Unfolding
import NodeGraph.Proofs.Validity
import NodeGraph.Proofs.WholeNumbers
import NodeGraph.Proofs.Worklist
import NodeGraph.Provenance
import NodeGraph.Text.Plain
import NodeGraph.Text.Quoted
import NodeGraph.Validity
