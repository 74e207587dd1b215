import Flowchart.Action.Reader
import Flowchart.Diagnostic.Log
import Flowchart.Diagram.Header
import Flowchart.Diagram.Session
import Flowchart.Json.Reader

/-!
# Conversion

From the definition of a workflow to the text of its diagram:

* `Definition.actions?` finds the actions in a document,
* `Conversion.ofEntries` reads, indexes and draws them,
* `convert` does both, and `convertJson` starts from JSON text.

A document without actions has no diagram, and neither has one with a number that has too many
digits to be read or written. Everything else that may be wrong with a definition is reported next
to the diagram.
-/

namespace Flowchart

/-- How a diagram is made. -/
structure Config where
  direction : String := "TD"
  /-- The engine that lays the diagram out; none leaves the choice to the reader. -/
  layout : Option String := some "elk"
  title : Option String := none
  styles : StyleTable := []
  /-- Whether the classes of the well-known kinds are defined even if they are not used. -/
  legend : Bool := true

namespace Definition

/-- Where an exported definition keeps its actions. -/
def exportPath : List String := ["body", "properties", "definition", "actions"]

/-- The value at the end of a path of keys. -/
def at? (definition : Value) (path : List String) : Option Value :=
  path.foldlM (fun v key => v.get? key) definition

/-- The actions of a definition, at its top or in the place of an export. -/
def actions? (definition : Value) : Option (List (Value × Value)) :=
  ((definition.get? "actions").bind Value.entries?).or
    ((at? definition exportPath).bind Value.entries?)

end Definition

namespace Diagram

/-- The node from which every diagram starts. -/
def startId : String := "Start"

/-- The colours of the start node. -/
def startStyle : String := "fill:#C8E6C9,stroke:#00C853,stroke-width:2px"

/-- The classes of the legend, in order. -/
def legendClasses : List String :=
  ["If", "Switch", "Foreach", "Until", "SetVariable", "Scope", "Terminate", "InitializeVariable",
    "OpenApiConnection", "Expression", "Workflow"]

/-- The top-level actions that run after nothing. -/
def startingNames (actions : Actions) : List String :=
  Table.keys (actions.filter fun (_, action) => action.runAfter.isEmpty)

/-- The strokes that come before all actions: the start node, and its arrows to the actions that run
after nothing. -/
def startStrokes (actions : Actions) : List Stroke :=
  let starting := startingNames actions
  [.node startId "Start" .circle, .line (.nodeStyle startId startStyle)]
    ++ (if starting.isEmpty then [.report .noStartActions] else [])
    ++ starting.map fun name => .connect startId (nodeId name) none ""

/-- Defines the classes of the legend that have not been defined. -/
def Canvas.addLegend (styles : StyleTable) (c : Canvas) : Canvas :=
  legendClasses.foldl (fun c name => (c.defineClass (classStyle styles name)).1) c

end Diagram

/-- A diagram, and what happened while it was made. -/
structure Conversion where
  header : Diagram.Header
  memo : Diagram.Memo
  canvas : Diagram.Canvas
  events : List Event

namespace Conversion

/-- The text of the diagram. -/
def code (c : Conversion) : String :=
  c.header.render ++ c.canvas.render

/-- Draws actions under a configuration. -/
def ofActions (config : Config) (actions : Actions) : Conversion :=
  let (index, reports) := Index.ofActions actions
  let session := Diagram.Session.new ⟨index, config.styles⟩
  let (session, startEvents) := session.draw (Diagram.startStrokes actions)
  -- nothing leads to the top-level actions here: their arrows are among the start strokes
  let (session, _, events) := session.visitAll actions ⟨none, .none, none, ""⟩
  let canvas := if config.legend then session.canvas.addLegend config.styles else session.canvas
  { header := ⟨config.direction, config.layout, config.title⟩
    memo := session.memo
    canvas
    events := reports.map .report ++ startEvents ++ events }

/-- Reads and draws the actions of a definition. -/
def ofEntries (config : Config) (entries : List (Value × Value)) : Conversion :=
  let (actions, events) := Actions.ofEntries entries
  let conversion := ofActions config actions
  { conversion with events := events ++ conversion.events }

/-- What was reported before the work ended. -/
def reports (c : Conversion) : List Diagnostic := Event.reports c.events

/-- The limit at which the work halted, if it did; then there is no diagram. -/
def halt? (c : Conversion) : Option Decimal.LimitError := Event.halt? c.events

end Conversion

/-- Why there is no diagram. -/
inductive ConversionError where
  /-- The text is not JSON. -/
  | json (e : Json.Error)
  /-- The document has no actions where they are looked for. -/
  | noActions
  /-- The work has halted. -/
  | limit (e : Decimal.LimitError)
deriving DecidableEq, Repr

/-- The message for an error. An integer that is too long is no fault of the form of the text. -/
def ConversionError.message : ConversionError → String
  | json (.limit e) | limit e => e.message
  | json e => "Invalid JSON format provided: " ++ e.message
  | noActions => "Invalid structure. Actions not found."

/-- Reads a definition from JSON text. -/
def readJson (text : String) : Except ConversionError Value :=
  (Json.read text).mapError .json

/-- Converts a definition. Gives the log with what is reported added to it, also if the work has
halted, and the diagram if there is one. -/
def convert (config : Config) (log : Log) (definition : Value) :
    Log × Except ConversionError Conversion :=
  match Definition.actions? definition with
  | none => (log, throw .noActions)
  | some entries =>
    let conversion := Conversion.ofEntries config entries
    -- what came before the limit has been reported all the same
    (log.recordAll conversion.reports,
      match conversion.halt? with
      | some e => throw (.limit e)
      | none => pure conversion)

/-- Converts a definition in JSON text. -/
def convertJson (config : Config) (log : Log) (text : String) :
    Log × Except ConversionError Conversion :=
  match readJson text with
  | .ok definition => convert config log definition
  | .error e => (log, throw e)

end Flowchart
