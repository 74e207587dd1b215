import Flowchart.Diagram.Walk

/-!
# Drawing sessions

A session draws into one canvas step by step, and remembers between the steps what has been
visited.
-/

namespace Flowchart.Diagram

/-- A drawing that goes on: the plan, the memory of the walk and the canvas. -/
structure Session where
  plan : Plan
  memo : Memo
  canvas : Canvas

namespace Session

/-- A session before its first step. -/
def new (plan : Plan) : Session := ⟨plan, .empty, .blank⟩

/-- Draws strokes. -/
def draw (s : Session) (strokes : List Stroke) : Session × List Event :=
  let (canvas, events) := s.canvas.drawAll strokes
  ({ s with canvas }, events)

/-- Takes a part of a walk and draws its strokes; gives the exit nodes and what happens. -/
def take (s : Session) (next : Memo → Leg) : Session × List String × List Event :=
  let leg := next s.memo
  let (s, events) := { s with memo := leg.memo }.draw leg.strokes
  (s, leg.exits, events)

/-- Walks from the action of a name in a group. -/
def visit (s : Session) (name : String) (group : Actions) :
    Session × List String × List Event :=
  s.take (s.plan.walk name group)

/-- Walks over all actions of a group. -/
def visitAll (s : Session) (group : Actions) (w : Wiring) :
    Session × List String × List Event :=
  s.take (s.plan.walkAll group w)

end Session

end Flowchart.Diagram
