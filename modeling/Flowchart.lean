import Flowchart.Text.Blank
import Flowchart.Text.CharRef
import Flowchart.Text.Quoted
import Flowchart.Diagram.Id
import Flowchart.Diagram.Line
import Flowchart.Value.Printer
import Flowchart.Json.Reader
import Flowchart.Style.Override
import Flowchart.Diagnostic.Log
import Flowchart.Action.Index
import Flowchart.Action.Reader
import Flowchart.Diagram.Session
import Flowchart.Diagram.Header
import Flowchart.Conversion
import Flowchart.Page
import Flowchart.Text.Lines
import Flowchart.Yaml.Reader
import Flowchart.Source
import Flowchart.Command.Run
import Flowchart.Main
import Flowchart.Proofs.Memory
import Flowchart.Proofs.Tree
import Flowchart.Proofs.Walks
import Flowchart.Proofs.Canvas
import Flowchart.Proofs.Coverage
import Flowchart.Proofs.Reading
import Flowchart.Proofs.Descriptions
import Flowchart.Proofs.Drawing
import Flowchart.Proofs.Nodes
import Flowchart.Proofs.Endpoints
import Flowchart.Proofs.Ends
import Flowchart.Proofs.Exits
import Flowchart.Proofs.Arrows
import Flowchart.Proofs.Edges
import Flowchart.Proofs.Reordering
import Flowchart.Proofs.Defects
import Flowchart.Proofs.Scopes
import Flowchart.Proofs.Reports
import Flowchart.Proofs.Boxes
import Flowchart.Proofs.Descent
import Flowchart.Proofs.Containment
import Flowchart.Proofs.History
import Flowchart.Proofs.Reachability
import Flowchart.Proofs.Cycles
import Flowchart.Proofs.Repetition
import Flowchart.Proofs.Redeclaration
import Flowchart.Proofs.Palette
import Flowchart.Proofs.Classes
import Flowchart.Proofs.Order
import Flowchart.Proofs.NestedCycles
import Flowchart.Proofs.Start
import Flowchart.Proofs.Requests
import Flowchart.Proofs.Termination
import Flowchart.Proofs.Marks
import Flowchart.Proofs.Labels
import Flowchart.Proofs.Decoding
import Flowchart.Proofs.Warnings
import Flowchart.Proofs.Legibility
import Flowchart.Proofs.Recording
import Flowchart.Proofs.Emission
import Flowchart.Proofs.FirstUse
import Flowchart.Proofs.Entries
import Flowchart.Proofs.Indexing
import Flowchart.Proofs.Interpretation
import Flowchart.Proofs.Files
import Flowchart.Proofs.Additions
import Flowchart.Proofs.Acceptance
import Flowchart.Proofs.Outcomes
import Flowchart.Proofs.Pages
import Flowchart.Proofs.Flags
import Flowchart.Proofs.Halting
import Flowchart.Proofs.Writing
import Flowchart.Proofs.Runs
import Flowchart.Proofs.Escaping
import Flowchart.Proofs.Overrides
import Flowchart.Proofs.Merging
import Flowchart.Proofs.Refusals
import Flowchart.Proofs.Styling
import Flowchart.Proofs.Visibility
import Flowchart.Proofs.Identifiers
