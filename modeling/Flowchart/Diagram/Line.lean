import Flowchart.Diagram.Label
import Flowchart.Style.Basic

/-!
# Lines of a diagram

A diagram is a sequence of lines, one statement each. `Line` says what a line states, and
`Line.render` writes it. The texts inside a line are already in the form of labels.
-/

namespace Flowchart.Diagram

/-- A statement of the diagram language. -/
inductive Line where
  /-- Declares a node. -/
  | node (id : String) (label : String) (shape : Shape)
  /-- An arrow, with or without a text on it. -/
  | edge (source target : String) (label : Option String)
  | openSubgraph (title : String)
  | closeSubgraph
  /-- Gives the colours of a class. -/
  | classDef (className fill stroke : String)
  /-- Puts a node into a class. -/
  | inClass (id className : String)
  /-- Gives colours to one node. -/
  | nodeStyle (id style : String)
  /-- A line that a caller has written. -/
  | verbatim (text : String)
deriving DecidableEq, Repr

namespace Line

/-- The declaration of a node that shows `text`. -/
def ofNode (id text : String) (shape : Shape) : Line :=
  node id (labelText text) shape

/-- An arrow with `text` on it; an empty text is none. -/
def ofEdge (source target : String) (text : Option String) : Line :=
  edge source target ((text.filter (· != "")).map labelText)

/-- The first line of a subgraph under a title. -/
def ofTitle (title : String) : Line :=
  openSubgraph (labelText title)

/-- The colours of the class of a style. -/
def ofStyle (style : Style) : Line :=
  classDef style.className style.fill style.stroke

/-- The brackets that give a node its shape. -/
def brackets : Shape → String × String
  | .diamond => ("\x7b\x7b", "\x7d\x7d")
  | .rectangle => ("[", "]")
  | .circle => ("((", "))")
  | .rounded | .other _ => ("(", ")")

/-- The text of a line. The label of a node stands in quotes, so that a bracket in it does not end
the node. -/
def render : Line → String
  | node id label shape =>
    let (opening, closing) := brackets shape
    id ++ opening ++ "\"" ++ label ++ "\"" ++ closing
  | edge source target none => source ++ " --> " ++ target
  | edge source target (some label) => source ++ " -- " ++ label ++ " --> " ++ target
  | openSubgraph title => "subgraph \"" ++ title ++ "\""
  | closeSubgraph => "end"
  | classDef className fill stroke =>
    "classDef " ++ className ++ " fill:" ++ fill ++ ",stroke:" ++ stroke ++ ",stroke-width:2px;"
  | inClass id className => "class " ++ id ++ " " ++ className ++ ";"
  | nodeStyle id style => "style " ++ id ++ " " ++ style ++ ";"
  | verbatim text => text

@[simp] theorem render_node (id label : String) (shape : Shape) : (node id label shape).render
    = id ++ (brackets shape).1 ++ "\"" ++ label ++ "\"" ++ (brackets shape).2 := rfl

@[simp] theorem render_edge_none (source target : String) :
    (edge source target none).render = source ++ " --> " ++ target := rfl

@[simp] theorem render_edge_some (source target label : String) :
    (edge source target (some label)).render
      = source ++ " -- " ++ label ++ " --> " ++ target := rfl

@[simp] theorem render_openSubgraph (title : String) :
    (openSubgraph title).render = "subgraph \"" ++ title ++ "\"" := rfl

@[simp] theorem render_classDef (className fill stroke : String) :
    (classDef className fill stroke).render
      = "classDef " ++ className ++ " fill:" ++ fill ++ ",stroke:" ++ stroke
        ++ ",stroke-width:2px;" := rfl

@[simp] theorem render_inClass (id className : String) :
    (inClass id className).render = "class " ++ id ++ " " ++ className ++ ";" := rfl

@[simp] theorem render_nodeStyle (id style : String) :
    (nodeStyle id style).render = "style " ++ id ++ " " ++ style ++ ";" := rfl

end Line

/-- The text of a sequence of lines. Each ends with a line break; no lines are no text. -/
def renderLines (lines : List Line) : String :=
  String.join (lines.map fun l => l.render ++ "\n")

end Flowchart.Diagram
