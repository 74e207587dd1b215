import Flowchart.Proofs.Boxes
import Flowchart.Proofs.Descent

/-!
# Containment

If actions run after their siblings only, the walk never draws an action inside a box that does not
belong around it: what it draws ahead of an action stands next to that action in the tree.

* `Actions.boxesAround` are the boxed actions along a path, and `Actions.boxesAt` those at a
  declaration, its own box included;
* `Stands` says which nodes strokes leave when they are drawn inside given boxes, and with which
  boxes around each of them;
* `Walks.stands`: a trip whose tasks all belong into the open boxes leaves each node where the tree
  has its declaration;
* `convert_containment` says so of diagrams.
-/

namespace Flowchart

open Diagram

/-! ## The boxes at a declaration -/

/-- The boxed actions among the names of a path. -/
def Actions.boxesAround (actions : Actions) (path : List String) : List String :=
  path.filter fun n => actions.declarations.any fun e => e.name == n && e.action.isBoxed

/-- The boxed actions around a declared action from the outermost to the innermost, then the action
itself if it is boxed. -/
def Actions.boxesAt (actions : Actions) (d : Declaration) : List String :=
  actions.boxesAround (d.path ++ [d.name])

theorem Actions.Distinct.any_isBoxed {actions : Actions} (hdist : actions.Distinct)
    {d : Declaration} (hd : d ∈ actions.declarations) :
    (actions.declarations.any fun e => e.name == d.name && e.action.isBoxed)
      = d.action.isBoxed := by
  rw [Bool.eq_iff_iff, List.any_eq_true]
  constructor
  · rintro ⟨e, he, hbox⟩
    rw [Bool.and_eq_true, beq_iff_eq] at hbox
    exact hdist.eq_of_name he hd hbox.1 ▸ hbox.2
  · intro hbox
    exact ⟨d, hd, by simp [hbox]⟩

/-- The boxes at a declaration are those around it and its own. -/
theorem Actions.Distinct.boxesAt_eq {actions : Actions} (hdist : actions.Distinct)
    {d : Declaration} (hd : d ∈ actions.declarations) :
    actions.boxesAt d
      = actions.boxesAround d.path ++ if d.action.isBoxed then [d.name] else [] := by
  rw [boxesAt, boxesAround, List.filter_append, List.filter_singleton, hdist.any_isBoxed hd,
    boxesAround, cond_eq_ite]

/-- A boxed action has its box around everything it holds, and around nothing else. -/
theorem Actions.Distinct.mem_boxesAt_iff {actions : Actions} (hdist : actions.Distinct)
    {d e : Declaration} (hd : d ∈ actions.declarations) (he : e ∈ actions.declarations)
    (hbox : d.action.isBoxed) : d.name ∈ actions.boxesAt e ↔ d.Holds e := by
  rw [boxesAt, boxesAround, List.mem_filter, hdist.any_isBoxed hd, mem_path_iff_holds hdist hd e he]
  simp [hbox]

namespace Diagram

/-! ## Where nodes stand -/

/-- A line that declares a node. -/
def Line.isNode : Line → Bool
  | node _ _ _ => true
  | _ => false

/-- The nodes among lines that have been read with the boxes around them. -/
def nodePlaces (ps : List (Line × List String)) : List (Line × List String) :=
  ps.filter fun p => p.1.isNode

theorem nodePlaces_append (ps ps' : List (Line × List String)) :
    nodePlaces (ps ++ ps') = nodePlaces ps ++ nodePlaces ps' := by
  rw [nodePlaces, List.filter_append]
  rfl

/-- Lines of no box have the same boxes around them. -/
theorem nodePlaces_of_flat (s : Scope) {ls : List Line} (h : ∀ l ∈ ls, l.isFlat) :
    nodePlaces (s.places ls) = (ls.filter Line.isNode).map fun l => (l, s.opened) := by
  rw [nodePlaces, s.places_of_flat h, List.filter_map]
  rfl

theorem filter_isNode_of_plain {ss : List Stroke} (h : ∀ s ∈ ss, s.isPlain) (c : Canvas) :
    (c.linesOfAll ss).filter Line.isNode = [] := by
  refine List.filter_eq_nil_iff.mpr fun l hl hnode => ?_
  cases l with
  | node id label shape => exact node_not_mem_of_plain h c id label shape hl
  | _ => cases hnode

/-- Drawn inside these boxes, the strokes leave these nodes, in some order. -/
def Stands (outer : List String) (ss : List Stroke) (nodes : List (Line × List String)) : Prop :=
  ∀ (c : Canvas) (names : List String),
    (nodePlaces ((Scope.mk outer (owners ss ++ names)).places (c.linesOfAll ss))).Perm nodes

namespace Stands

variable {outer : List String} {ss ss' : List Stroke} {nodes nodes' : List (Line × List String)}

theorem perm (h : Stands outer ss nodes) (hp : nodes.Perm nodes') : Stands outer ss nodes' :=
  fun c names => (h c names).trans hp

/-- After nested strokes the same boxes are open as before. -/
theorem append (h : Stands outer ss nodes) (hn : Nested ss) (h' : Stands outer ss' nodes') :
    Stands outer (ss ++ ss') (nodes ++ nodes') := by
  intro c names
  rw [owners_append, List.append_assoc, Canvas.linesOfAll_append, Scope.places_append, hn.readAll,
    nodePlaces_append]
  exact (h c _).append (h' _ names)

/-- Strokes without nodes and boxes leave nothing. -/
theorem of_plain (hflat : ∀ s ∈ ss, s.isFlat) (hplain : ∀ s ∈ ss, s.isPlain) :
    Stands outer ss [] := by
  intro c names
  rw [nodePlaces_of_flat _ (Canvas.flat_linesOfAll hflat c), filter_isNode_of_plain hplain,
    List.map_nil]

/-- Inside a box there is one box more. -/
theorem box {action title : String} (hn : Nested ss) (h : Stands (outer ++ [action]) ss nodes) :
    Stands outer (.openBox action title :: (ss ++ Stroke.closeBox action title :: [])) nodes := by
  intro c names
  obtain ⟨c₁, c₂, hlines⟩ := c.linesOfAll_box action title ss []
  have hplaces : nodePlaces ((Scope.mk outer (action :: (owners ss ++ names))).places
        (.ofTitle title :: (c₁.linesOfAll ss ++ [.closeSubgraph])))
      = nodePlaces ((Scope.mk (outer ++ [action]) (owners ss ++ names)).places
          (c₁.linesOfAll ss)) := by
    rw [hn.places_box, nodePlaces, List.filter_cons_of_neg Bool.false_ne_true, List.filter_append,
      List.filter_cons_of_neg Bool.false_ne_true]
    exact List.append_nil _
  rw [hlines, owners_box, List.cons_append, List.append_assoc]
  exact hplaces ▸ h c₁ names

/-- The face of an action leaves its node. -/
theorem face (styles : StyleTable) {d : Declaration} (h : d.action.Sound) :
    Stands outer (face styles d.name d.action) [(d.nodeLine styles, outer)] := by
  intro c names
  have hreports : ∀ s ∈ (d.action.reports d.name).map Stroke.report, s.isPlain := by
    intro s hs
    obtain ⟨r, -, rfl⟩ := List.mem_map.mp hs
    rfl
  have hfirst : (c.linesOfAll [d.action.nodeStroke styles d.name,
      .assign (nodeId d.name) (styleFor styles d.action.kind)]).filter Line.isNode
        = [d.nodeLine styles] := by
    rw [Action.nodeStroke, appearance_eq styles d.name h]
    simp only [Canvas.linesOfAll, Canvas.linesOf]
    split
    · rfl
    · rfl
  rw [nodePlaces_of_flat _ (Canvas.flat_linesOfAll (flat_face styles d.name d.action) c),
    Diagram.face, Canvas.linesOfAll_append, List.filter_append, hfirst,
    filter_isNode_of_plain hreports]
  exact List.Perm.refl _

/-- An action leaves its node at its own boxes, and the nodes inside it. -/
theorem drawing {actions : Actions} (hdist : actions.Distinct) (styles : StyleTable)
    {d : Declaration} (hd : d ∈ actions.declarations) (hs : d.action.Sound) (hn : Nested ss)
    (h : Stands (actions.boxesAt d) ss nodes) :
    Stands (actions.boxesAround d.path)
      (d.action.opening styles d.name ++ ss ++ d.action.closing d.name)
      ((d.nodeLine styles, actions.boxesAt d) :: nodes) := by
  have hface := Nested.of_flat (flat_face styles d.name d.action)
  have hinside := (Stands.face styles hs).append hface h
  have hbox := Action.isBoxed_eq hs d.name
  cases htitle : d.action.boxTitle? d.name with
  | none =>
    rw [htitle, Option.isSome_none] at hbox
    have hat : actions.boxesAt d = actions.boxesAround d.path := by
      rw [hdist.boxesAt_eq hd, hbox, if_neg Bool.false_ne_true, List.append_nil]
    rw [drawing_of_plain htitle, ← hat]
    exact hinside
  | some title =>
    rw [htitle, Option.isSome_some] at hbox
    have hat : actions.boxesAt d = actions.boxesAround d.path ++ [d.name] := by
      rw [hdist.boxesAt_eq hd, hbox, if_pos rfl]
    rw [drawing_of_boxed htitle]
    rw [hat] at hinside ⊢
    exact .box (hface.append hn) hinside

end Stands

/-! ## Trips -/

/-- The task is to visit an action inside exactly the boxes `outer`, or to see to one that would be
drawn there. -/
def Task.Belongs (actions : Actions) (outer : List String) : Task → Prop
  | wire _ _ _ _ | leave _ _ => True
  | visit d => actions.boxesAround d.path = outer
  | depend _ dependency => ∀ e ∈ actions.declarations, e.name = dependency →
      actions.boxesAround e.path = outer

variable {actions : Actions} {styles : StyleTable} {ts : List Task} {m : Memo} {t : Trip}

/-- What is inside an action belongs into the boxes at it. -/
theorem belongs_tasks {d : Declaration} :
    ∀ task ∈ d.tasks, task.Belongs actions (actions.boxesAt d) := by
  intro task htask
  cases task with
  | wire source target text note => trivial
  | leave id r => trivial
  | visit c =>
    rw [Task.Belongs, Declaration.path_of_mem_children (visit_mem_tasks.mp htask)]
    rfl
  | depend name dependency => exact absurd htask depend_not_mem_tasks

/-- What an action runs after belongs into the boxes around the action. -/
theorem belongs_dependencyTasks (hdist : actions.Distinct) (hn : actions.Neighborly)
    {d : Declaration} (hd : d ∈ actions.declarations) :
    ∀ task ∈ d.dependencyTasks, task.Belongs actions (actions.boxesAround d.path) := by
  intro task htask
  obtain ⟨k, hk, rfl⟩ := List.mem_map.mp htask
  rintro e he rfl
  rw [(hdist.eq_sibling hd he (hn d hd e he hk)).1]

/-- A trip whose tasks belong into the open boxes leaves the node of each declaration it draws where
the tree has it. -/
theorem Walks.stands (hdist : actions.Distinct) (hn : actions.Neighborly)
    (hs : ∀ d ∈ actions.declarations, d.action.Sound) (h : Walks actions styles ts m t)
    {outer : List String} (hts : ∀ task ∈ ts, task.Belongs actions outer) :
    Stands outer t.strokes (t.drawn.map fun d => (d.nodeLine styles, actions.boxesAt d)) := by
  induction h generalizing outer with
  | nil m => exact .of_plain (by simp) (by simp)
  | wire _ ih | leave _ ih | unknown _ _ ih =>
    exact Stands.append (.of_plain (by simp [Stroke.isFlat]) (by simp [Stroke.isPlain]))
      (.flat rfl .nil) (ih fun task htask => hts task (List.mem_cons_of_mem _ htask))
  | again _ _ _ ih => exact ih fun task htask => hts task (List.mem_cons_of_mem _ htask)
  | @fresh d ts m before inside t declared _ dependencies groups _ ih₁ ih₂ ih₃ =>
    have houter : actions.boxesAround d.path = outer := hts _ List.mem_cons_self
    subst houter
    have hbefore := ih₁ (belongs_dependencyTasks hdist hn declared)
    have hinside := (ih₂ belongs_tasks).drawing hdist styles declared (hs d declared) groups.nested
    have hreport : Stands (actions.boxesAround d.path)
        [.report (.exitNodes d.name (d.exitsFrom inside.exits))] [] :=
      .of_plain (by simp [Stroke.isFlat]) (by simp [Stroke.isPlain])
    have hrest := ih₃ fun task htask => hts task (List.mem_cons_of_mem _ htask)
    have hdrawing := dependencies.nested.append (groups.nested.drawing styles d)
    have hown := ((hbefore.append dependencies.nested hinside).append hdrawing hreport).append
      (hdrawing.append (.flat rfl .nil)) hrest
    refine hown.perm ?_
    rw [Trip.drawn_prepend, List.map_append, List.map_cons, List.map_append, List.append_nil]
    -- dependencies come first on the canvas, the action first among the declarations
    exact List.perm_middle.append_right _
  | @met name dependency d state ts m t _ _ _ ih =>
    have hrest := ih fun task htask => hts task (List.mem_cons_of_mem _ htask)
    have hflat := List.forall_mem_append.mpr
      ⟨flat_reports state name dependency, flat_arrows m name dependency⟩
    have hplain := List.forall_mem_append.mpr
      ⟨plain_reports state name dependency, plain_arrows m name dependency⟩
    exact Stands.append (.of_plain hflat hplain) (.of_flat hflat) hrest
  | @force name dependency d ts m first t known _ drawn _ ih₁ ih₂ =>
    obtain ⟨hd, hname⟩ := Index.mem_declarations known
    have hvisit : (Task.visit d).Belongs actions outer := hts _ List.mem_cons_self d hd hname
    have hfirst := ih₁ (by simpa using hvisit)
    have hrest := ih₂ fun task htask => hts task (List.mem_cons_of_mem _ htask)
    have hflat := flat_arrows first.memo name dependency
    have harrows : Stands outer (first.memo.arrows name dependency) [] :=
      .of_plain hflat (plain_arrows first.memo name dependency)
    have hown := (hfirst.append drawn.nested harrows).append
      (drawn.nested.append (.of_flat hflat)) hrest
    refine hown.perm ?_
    rw [Trip.drawn_prepend, List.map_append, List.append_nil]

/-! ## Diagrams -/

/-- The start node is outside of all boxes. -/
theorem stands_startStrokes (actions : Actions) :
    Stands [] (startStrokes actions) [(startEntry.1, [])] := by
  intro c names
  obtain ⟨arrows, hplain, heq⟩ := startStrokes_eq actions
  rw [nodePlaces_of_flat _ (Canvas.flat_linesOfAll (flat_startStrokes actions) c), heq,
    Canvas.linesOfAll_append, List.filter_append, filter_isNode_of_plain hplain]
  exact List.Perm.refl _

/-- In a tree of distinct names in which actions run after their siblings only, each action is
declared inside the boxes around it from the outermost to the innermost, and inside its own if it
has one. So the box of an action has in it what the action holds and nothing else. -/
theorem convert_containment {config : Config} {log : Log} {definition : Value} {c : Conversion}
    {actions : Actions} (h : (convert config log definition).2 = .ok c)
    (htree : Definition.tree? definition = some actions) (hdist : actions.Distinct)
    (hn : actions.Neighborly) :
    (nodePlaces c.places).Perm ((startEntry.1, [])
        :: actions.declarations.map fun d => (d.nodeLine config.styles, actions.boxesAt d)) ∧
      c.canvas.lines.filter Line.opens = c.openedBoxes.map (fun box => Line.ofTitle box.2) ∧
      c.openedBoxes.Perm (actions.declarations.filterMap Declaration.box?) ∧
      ∀ d ∈ actions.declarations, d.action.isBoxed → ∀ e ∈ actions.declarations,
        d.name ∈ actions.boxesAt e ↔ d.Holds e := by
  obtain ⟨t, ht⟩ := convert_drawn_of_tree h htree
  have hhalt := convert_halt? h
  have hroot : ∀ task ∈ rootTasks actions, task.Belongs actions [] := by
    intro task htask
    obtain ⟨d, rfl⟩ := rootTasks_visit htask
    rw [Task.Belongs, path_of_root (visit_mem_memberTasks.mp htask)]
    rfl
  have hstands := (stands_startStrokes actions).append (.of_flat (flat_startStrokes actions))
    (ht.walks.stands hdist hn ht.readable.sound hroot)
  have hperm := ht.drawn_perm hdist
  refine ⟨?_, ht.filter_opens hhalt, (ht.openedBoxes_perm hhalt).trans (hperm.filterMap _),
    fun d hd hbox e he => hdist.mem_boxesAt_iff hd he hbox⟩
  obtain ⟨used, hplaces⟩ := ht.places_eq hhalt
  have hlegend : nodePlaces ((Scope.mk [] []).places (used.map Line.ofStyle)) = [] := by
    have hnone : (used.map Line.ofStyle).filter Line.isNode = [] := by
      rw [List.filter_map, List.map_eq_nil_iff, List.filter_eq_nil_iff]
      exact fun style _ => Bool.false_ne_true
    rw [nodePlaces_of_flat _ (flat_legend used), hnone, List.map_nil]
  have hnodes := hstands Canvas.blank []
  rw [List.append_nil] at hnodes
  rw [hplaces, nodePlaces_append, hlegend, List.append_nil]
  exact hnodes.trans ((hperm.map _).cons _)

/-- In the nested sample the action in the condition stands in the boxes of the loop and of the
condition. -/
theorem convert_containment_nested :
    (Line.node "Keep" "Keep" .rectangle, ["Each", "Check"])
      ∈ (Conversion.ofEntries {} nestedEntries).places := by
  have hneighborly : nestedActions.Neighborly := by
    rw [Actions.Neighborly]
    decide
  obtain ⟨hplaces, -⟩ :=
    convert_containment convert_nested tree?_nested distinct_nested hneighborly
  refine List.mem_of_mem_filter (hplaces.mem_iff.mpr (List.mem_cons_of_mem _ ?_))
  refine List.mem_map.mpr ⟨nestedActions.declarations[2], List.getElem_mem _, ?_⟩
  decide +kernel

end Diagram

end Flowchart
