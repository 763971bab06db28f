import Flowsheet.Catalog.Archive
import Flowsheet.Catalog.Basic
import Flowsheet.Catalog.Keeper
import Flowsheet.Catalog.Ledger
import Flowsheet.Catalog.Record
import Flowsheet.Document.Basic
import Flowsheet.Document.Data
import Flowsheet.Document.Field
import Flowsheet.Document.Problem
import Flowsheet.Document.Row
import Flowsheet.Double.Arithmetic
import Flowsheet.Double.Basic
import Flowsheet.Double.Decimal
import Flowsheet.Double.Notation
import Flowsheet.Double.Rounding
import Flowsheet.Double.Shortest
import Flowsheet.Expression.Basic
import Flowsheet.Expression.Machine
import Flowsheet.Expression.Parser
import Flowsheet.Expression.Template
import Flowsheet.Expression.Token
import Flowsheet.Expression.Tree
import Flowsheet.Graph.Basic
import Flowsheet.Graph.Edit
import Flowsheet.Main
import Flowsheet.Node.Basic
import Flowsheet.Node.Handle
import Flowsheet.Node.Kind
import Flowsheet.Node.Payload
import Flowsheet.Numeral
import Flowsheet.Proofs.Catalog.Keyed
import Flowsheet.Proofs.Catalog.Ledger
import Flowsheet.Proofs.Document.Check
import Flowsheet.Proofs.Document.Payload
import Flowsheet.Proofs.Document.RoundTrip
import Flowsheet.Proofs.Document.Saved
import Flowsheet.Proofs.Double.Decimal
import Flowsheet.Proofs.Expression.Filling
import Flowsheet.Proofs.Expression.Grammar
import Flowsheet.Proofs.Expression.Lexing
import Flowsheet.Proofs.Expression.Machine
import Flowsheet.Proofs.Expression.Parsing
import Flowsheet.Proofs.Expression.Substitution
import Flowsheet.Proofs.Graph.Chronicle
import Flowsheet.Proofs.Graph.Integrity
import Flowsheet.Proofs.Graph.Sound
import Flowsheet.Proofs.Numeral.Longest
import Flowsheet.Proofs.Numeral.Reading
import Flowsheet.Proofs.Numeral.Rendering
import Flowsheet.Proofs.Numeral.Spelling
import Flowsheet.Proofs.Simulation.Lifecycle
import Flowsheet.Proofs.Success
import Flowsheet.Simulation.Player
import Flowsheet.Simulation.Session
import Flowsheet.Simulation.Step
import Flowsheet.Simulation.Variables
import Flowsheet.Studio.Basic
import Flowsheet.Studio.Demo
import Flowsheet.Studio.Outline
import Flowsheet.Studio.Sample
import Flowsheet.Table
import Flowsheet.Text.Blank
import Flowsheet.Text.DecimalDigit
import Flowsheet.Text.Encoding
import Flowsheet.Text.Printable
import Flowsheet.Text.Quoted
import Flowsheet.Text.TypedInteger
import Flowsheet.Value.Basic
import Flowsheet.Value.Display
import Flowsheet.Value.Layout
import Flowsheet.Value.Number
import Flowsheet.Value.Parts
import Flowsheet.Value.Reader
import Flowsheet.Value.Visible
import Flowsheet.Web.Address
import Flowsheet.Web.Body
import Flowsheet.Web.Markup
import Flowsheet.Web.Message
import Flowsheet.Web.Page
import Flowsheet.Web.Route
import Flowsheet.Web.Site
import Flowsheet.Proofs.Expression.Acceptance
import Flowsheet.Proofs.Simulation.Course
import Flowsheet.Proofs.Simulation.Termination
import Flowsheet.Proofs.Simulation.Control
import Flowsheet.Proofs.Expression.Attempt
import Flowsheet.Proofs.Simulation.Safety
import Flowsheet.Proofs.Document.NormalForm
import Flowsheet.Proofs.Simulation.History
import Flowsheet.Proofs.Simulation.Way
import Flowsheet.Proofs.Studio.Action
import Flowsheet.Proofs.Studio.Move
import Flowsheet.Proofs.Studio.Preview
import Flowsheet.Proofs.Simulation.Snapshot
import Flowsheet.Proofs.Simulation.Content
import Flowsheet.Proofs.Studio.Durability
import Flowsheet.Proofs.Studio.Agreement
import Flowsheet.Proofs.Studio.Independence
import Flowsheet.Proofs.Studio.Look
import Flowsheet.Proofs.Studio.Separation
import Flowsheet.Proofs.Web.Put
import Flowsheet.Proofs.Expression.Placeholder
import Flowsheet.Proofs.Simulation.Reference
import Flowsheet.Proofs.Simulation.Sending
import Flowsheet.Proofs.Document.Form
import Flowsheet.Proofs.Document.Admission
import Flowsheet.Proofs.Document.KeyOrder
import Flowsheet.Proofs.Expression.Decomposition
import Flowsheet.Proofs.Expression.Viability
import Flowsheet.Proofs.Simulation.Writing
import Flowsheet.Proofs.Expression.Literal
import Flowsheet.Proofs.Graph.Handle
import Flowsheet.Proofs.Graph.Connection
import Flowsheet.Proofs.Graph.Dangling
import Flowsheet.Proofs.Graph.Addition
import Flowsheet.Proofs.Simulation.Choice
import Flowsheet.Proofs.Simulation.FirstBranch
import Flowsheet.Proofs.Simulation.Seeding
