import Flowchart.Diagnostic.Event
import Flowchart.Diagram.Id
import Flowchart.Diagram.Line

/-!
# The canvas

A diagram is drawn by strokes. Most strokes are a line each; a canvas leaves out an arrow whose text
it has already drawn, and adds the colours of a class when the class is first used.

* `Stroke` is what may be drawn or reported,
* `Canvas` is what has been drawn,
* `Canvas.drawAll` draws strokes in order, and gives what happens on the way: a stroke whose label
  cannot be read halts the drawing before it, and others are reported after they are drawn.
-/

namespace Flowchart.Diagram

/-- A step of a drawing. -/
inductive Stroke where
  | line (l : Line)
  /-- Declares a node that shows a text. -/
  | node (id text : String) (shape : Shape)
  /-- An arrow; the note says in the report why it is there. -/
  | connect (source target : String) (text : Option String) (note : String)
  /-- Puts a node into the class of a style. -/
  | assign (id : String) (style : Style)
  /-- Opens the box around an action. -/
  | openBox (action title : String)
  | closeBox (action title : String)
  | report (d : Diagnostic)
deriving DecidableEq, Repr

namespace Stroke

/-- The text that a stroke puts into a label. -/
def label? : Stroke → Option String
  | node _ text _ => some text
  | connect _ _ text _ => text
  | openBox _ title => some title
  | line _ | assign _ _ | closeBox _ _ | report _ => none

/-- What stands in the way of a stroke: a label that cannot be read. -/
def halts (s : Stroke) : List Event :=
  ((s.label?.bind labelLimit?).map Event.halt).toList

end Stroke

/-- A diagram in the making: its lines, the texts of its arrows and the classes it defines. -/
structure Canvas where
  lines : List Line
  edges : List String
  classes : List String
deriving Repr

namespace Canvas

/-- Nothing drawn. -/
def blank : Canvas := ⟨[], [], []⟩

/-- Adds a line. -/
def addLine (c : Canvas) (l : Line) : Canvas :=
  { c with lines := c.lines ++ [l] }

/-- Adds an arrow unless one with the same text is there, and says whether it did. -/
def addEdge (c : Canvas) (source target : String) (text : Option String) : Canvas × Bool :=
  let edge := Line.ofEdge source target text
  -- arrows are compared as they are written: two texts may be written alike
  if c.edges.contains edge.render then (c, false)
  else ({ c.addLine edge with edges := c.edges ++ [edge.render] }, true)

/-- Adds the colours of the class of a style unless the class is defined, and says whether it
did. -/
def defineClass (c : Canvas) (style : Style) : Canvas × Bool :=
  if c.classes.contains style.className then (c, false)
  else
    ({ c.addLine (Line.ofStyle style) with classes := c.classes ++ [style.className] }, true)

/-- Draws a stroke, and gives what is reported with it. -/
def apply (c : Canvas) : Stroke → Canvas × List Diagnostic
  | .line l => (c.addLine l, [])
  | .node id text shape => (c.addLine (.ofNode id text shape), [])
  | .connect source target text note =>
    let (c, isNew) := c.addEdge source target text
    (c, if isNew then [.connected source target note] else [])
  | .assign id style =>
    -- the node joins its class first, the colours follow where they are needed
    let (c, isNew) := (c.addLine (.inClass id style.className)).defineClass style
    (c, if isNew then [.classDefined style.className] else [])
  | .openBox action title => (c.addLine (.ofTitle title), [.subgraphStarted action title])
  | .closeBox action title => (c.addLine .closeSubgraph, [.subgraphEnded action title])
  | .report d => (c, [d])

/-- Draws a stroke, and gives what happens with it. -/
def draw (c : Canvas) (s : Stroke) : Canvas × List Event :=
  let (c, reports) := c.apply s
  (c, s.halts ++ reports.map .report)

/-- Draws strokes in order. -/
def drawAll (c : Canvas) : List Stroke → Canvas × List Event
  | [] => (c, [])
  | s :: rest =>
    let (c, events) := c.draw s
    let (c, more) := drawAll c rest
    (c, events ++ more)

theorem drawAll_append (c : Canvas) (ss ts : List Stroke) :
    c.drawAll (ss ++ ts)
      = (((c.drawAll ss).1.drawAll ts).1, (c.drawAll ss).2 ++ ((c.drawAll ss).1.drawAll ts).2) := by
  induction ss generalizing c with
  | nil => rfl
  | cons s rest ih => simp [drawAll, ih]

/-- The text of the lines. -/
def render (c : Canvas) : String := renderLines c.lines

end Canvas

end Flowchart.Diagram
