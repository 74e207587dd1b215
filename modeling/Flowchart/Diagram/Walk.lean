import Flowchart.Action.Index
import Flowchart.Diagram.Canvas
import Flowchart.Diagram.Memo

/-!
# The walk over the actions

The walk turns actions into strokes. It goes depth first, draws the actions that an action runs
after ahead of it wherever they are declared, and draws each action once.

* `Leg` is what a part of the walk gives: exit nodes, strokes and the memory after it,
* `Action.groups` says how the groups inside an action are reached from its node,
* `visit` is one step of the walk, with the walk below it as an argument,
* `walk` and `walkAll` close the recursion. The names of the index bound its depth, since a visit
  goes deeper only at a name that it has not come to before.
-/

namespace Flowchart.Diagram

/-- A part of a walk: the nodes it ends at, its strokes, and the memory after it. -/
structure Leg where
  exits : List String
  strokes : List Stroke
  memo : Memo

namespace Leg

/-- Strokes alone. -/
def ofStrokes (strokes : List Stroke) (memo : Memo) : Leg := ⟨[], strokes, memo⟩

/-- Two parts in a row; the second starts with the memory of the first. -/
def andThen (first : Leg) (next : Memo → Leg) : Leg :=
  let second := next first.memo
  ⟨first.exits ++ second.exits, first.strokes ++ second.strokes, second.memo⟩

end Leg

/-- A walk that starts at the action of a name in a group. -/
abbrev Visit := String → Actions → Memo → Leg

/-! ## Groups of actions -/

/-- Which actions of a group an arrow leads to. -/
inductive Reach where
  | none
  | first
  | every
deriving DecidableEq, Repr

/-- The arrows into a group: where they start, which actions they reach, and what they say. -/
structure Wiring where
  entry : Option String
  reach : Reach
  text : Option String
  note : String
deriving Repr

/-- The arrow to an action of the group, if there is one. -/
def Wiring.strokes (w : Wiring) (isFirst : Bool) (name : String) : List Stroke :=
  match w.entry with
  | some entry =>
    if w.reach = .every ∨ (w.reach = .first ∧ isFirst) then
      [.connect entry (nodeId name) w.text w.note]
    else []
  | none => []

/-- Visits the names of a group in order. -/
def visitEach (visit : Visit) (group : Actions) (w : Wiring) (isFirst : Bool) :
    List String → Memo → Leg
  | [], memo => .ofStrokes [] memo
  | name :: rest, memo =>
    ((Leg.ofStrokes (w.strokes isFirst name) memo).andThen (visit name group)).andThen
      (visitEach visit group w false rest)

/-- Visits all actions of a group; an exit node that several share is given once. -/
def visitGroup (visit : Visit) (group : Actions) (w : Wiring) (memo : Memo) : Leg :=
  let leg := visitEach visit group w true group.keys memo
  { leg with exits := unique leg.exits }

/-- A group inside an action. -/
structure Group where
  actions : Actions
  reach : Reach
  text : Option String
  note : String
  /-- What is reported if the group is empty. The node of the action is then an exit. -/
  whenEmpty : Option Diagnostic

/-- Draws a group inside the action whose node is `id`. -/
def Group.leg (visit : Visit) (id : String) (g : Group) (memo : Memo) : Leg :=
  match g.actions.isEmpty, g.whenEmpty with
  | false, _ => visitGroup visit g.actions ⟨some id, g.reach, g.text, g.note⟩ memo
  | true, some d => ⟨[id], [.report d], memo⟩
  | true, none => .ofStrokes [] memo

/-- Draws groups one after another. -/
def groupLegs (visit : Visit) (id : String) : List Group → Memo → Leg
  | [], memo => .ofStrokes [] memo
  | g :: rest, memo => (g.leg visit id memo).andThen (groupLegs visit id rest)

end Flowchart.Diagram

namespace Flowchart.Action

open Diagram

/-- The groups inside an action of this name, and how its node leads to them. A condition leads to
the first action of each branch and a case likewise, but the default branch of a switch and the
body of a simple action have every action wired. -/
def groups (name : String) : Action → List Group
  | simple _ _ body => [⟨body, .every, none, "", none⟩]
  | condition _ yes no =>
    [⟨yes, .first, some "Yes", "Yes branch", some (.emptyBranch name .yes)⟩,
      ⟨no, .first, some "No", "No branch", some (.emptyBranch name .no)⟩]
  | switch _ cases default =>
    cases.map (fun (label, body) =>
      ⟨body, .first, some (displayName label), "Case: " ++ label,
        some (.emptyBranch name (.case label))⟩)
      ++ [⟨default.getD [], .every, some "Default", "Default case", none⟩]
  | scope kind _ body =>
    [⟨body, .first, none, "Scope child", some (.emptyScope name kind.name)⟩]

/-- What is reported about an action as a whole before its groups are drawn. -/
def reports (name : String) : Action → List Diagnostic
  | switch _ [] _ => [.noCases name]
  | _ => []

/-- What the title of the box around an action adds to its name; a simple action has no box. -/
def caption? : Action → Option String
  | simple _ _ _ => none
  | condition _ _ _ => some "If Condition"
  | switch _ _ _ => some "Switch Condition"
  | scope kind _ _ => some kind.name

/-- The title of the box around an action. -/
def boxTitle? (name : String) (a : Action) : Option String :=
  a.caption?.map fun caption => displayName name ++ " [" ++ caption ++ "]"

/-- What the node of an action shows, and its shape. Only a simple action takes its shape from its
style. -/
def appearance (styles : StyleTable) (name : String) : Action → String × Shape
  | simple kind _ _ =>
    if kind = "Start" then ("Start", .circle) else (displayName name, (styleFor styles kind).shape)
  | condition _ _ _ | switch _ _ _ => (displayName name, .diamond)
  | scope _ _ _ => (displayName name, .rectangle)

/-- The stroke that declares the node of an action. -/
def nodeStroke (styles : StyleTable) (name : String) (a : Action) : Stroke :=
  let (text, shape) := a.appearance styles name
  .node (nodeId name) text shape

/-- An action without exits of its own: whatever runs after it continues from its node. -/
def endsAtNode : Action → Bool
  | simple _ _ _ | scope _ _ _ => true
  | condition _ _ _ | switch _ _ _ => false

/-- The strokes before the groups of an action. -/
def opening (styles : StyleTable) (name : String) (a : Action) : List Stroke :=
  ((a.boxTitle? name).map (Stroke.openBox name)).toList
    ++ [a.nodeStroke styles name, .assign (nodeId name) (styleFor styles a.kind)]
    ++ (a.reports name).map .report

/-- The strokes after the groups of an action. -/
def closing (name : String) (a : Action) : List Stroke :=
  ((a.boxTitle? name).map (Stroke.closeBox name)).toList

/-- Draws an action: its node, the groups inside it, and the box around them. -/
def leg (styles : StyleTable) (visit : Visit) (name : String) (a : Action) (memo : Memo) : Leg :=
  let groups := groupLegs visit (nodeId name) (a.groups name) memo
  -- an action whose groups are empty, or have no exits, still leads on
  let exits :=
    if a.endsAtNode && groups.exits.isEmpty then [nodeId name] else groups.exits
  ⟨exits, a.opening styles name ++ groups.strokes ++ a.closing name, groups.memo⟩

end Flowchart.Action

namespace Flowchart.Diagram

/-! ## Visits -/

/-- What a walk knows from the start: where the actions are, and how they look. -/
structure Plan where
  index : Index
  styles : StyleTable

namespace Plan

/-- Makes sure that the action `dependency` is drawn, if it is declared at all, and leads from its
exit nodes to the action `name`. -/
def connectDependency (p : Plan) (visit : Visit) (name dependency : String) (memo : Memo) : Leg :=
  match p.index.lookup dependency with
  | none => .ofStrokes [.report (.dependencyNotFound name dependency)] memo
  | some declaration =>
    let drawn : Leg :=
      match memo.progress? dependency with
      | none => visit dependency declaration.container memo
      | some .underway => .ofStrokes [.report (.dependencyCycle name dependency)] memo
      | some .done => .ofStrokes [] memo
    -- in a cycle the dependency has no exit nodes yet, so its own node stands for them
    let arrows := (drawn.memo.exitsOf dependency).map fun source =>
      Stroke.connect source (nodeId name) none ""
    .ofStrokes (drawn.strokes ++ arrows) drawn.memo

/-- Connects the dependencies of an action in order. -/
def connectDependencies (p : Plan) (visit : Visit) (name : String) : List String → Memo → Leg
  | [], memo => .ofStrokes [] memo
  | dependency :: rest, memo =>
    (p.connectDependency visit name dependency memo).andThen
      (connectDependencies p visit name rest)

/-- One step of the walk. An action that has been visited gives its exit nodes again; any other is
marked, then its dependencies are drawn, then the action itself. -/
def visit (p : Plan) (deeper : Visit) : Visit := fun name group memo =>
  match group.lookup name with
  | none => .ofStrokes [.report (.actionNotFound name)] memo
  | some action =>
    match memo.progress? name with
    | some _ => ⟨memo.exitsOf name, [], memo⟩
    | none =>
      -- marked before its dependencies, so that a cycle through them comes to an end here
      let leg := (p.connectDependencies deeper name action.runAfter (memo.start name)).andThen
        (action.leg p.styles deeper name)
      let exits := unique leg.exits
      ⟨exits, leg.strokes ++ [.report (.exitNodes name exits)], leg.memo.finish name exits⟩

/-- The walk to a bounded depth. -/
def walkWithin (p : Plan) : Nat → Visit
  | 0 => fun _ _ memo => .ofStrokes [] memo
  | depth + 1 => p.visit (walkWithin p depth)

/-- A depth that no walk over the indexed actions exceeds: each deeper visit is at a new name. -/
def depth (p : Plan) : Nat := p.index.length + 1

/-- The walk from the action of a name in a group. -/
def walk (p : Plan) : Visit := p.walkWithin p.depth

/-- The walk over all actions of a group. -/
def walkAll (p : Plan) (group : Actions) (w : Wiring) (memo : Memo) : Leg :=
  visitGroup p.walk group w memo

end Plan

end Flowchart.Diagram
