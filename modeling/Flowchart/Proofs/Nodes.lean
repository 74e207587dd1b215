import Mathlib.Data.List.Perm.Basic
import Flowchart.Proofs.Drawing

/-!
# The nodes of a diagram

Which nodes a diagram declares, and what each of them looks like.

* `outline` gives the shape of a node by the kind of its action alone, and `appearance_eq` says that
  the walk draws that shape;
* `Declaration.nodeEntry` is the line that declares the node of an action with the line that puts
  it into its class, and `Walks.nodeLines_perm` says that a trip leaves one such pair for each
  declaration it has drawn, and no other node;
* `convert_nodes`: no action is drawn twice, and if all names are different every action is drawn.
-/

namespace Flowchart

open Diagram

/-- The shape of the node of an action, by its kind. -/
def outline (styles : StyleTable) (kind : String) : Shape :=
  if kind ∈ ["If", "Switch"] then .diamond
  else if kind ∈ ["Foreach", "Until", "Scope"] then .rectangle
  else if kind = "Start" then .circle
  else (styleFor styles kind).shape

/-- The text of the node of an action of this name and kind. -/
def caption (name kind : String) : String :=
  if kind = "Start" then "Start" else displayName name

/-- The walk draws the shape and the text that the kind asks for. -/
theorem appearance_eq (styles : StyleTable) (name : String) {a : Action} (h : a.Sound) :
    a.appearance styles name = (caption name a.kind, outline styles a.kind) := by
  cases a with
  | simple kind runAfter body =>
    have hbox : kind ∉ boxKinds := h
    simp only [boxKinds, List.mem_cons, List.not_mem_nil, or_false, not_or] at hbox
    obtain ⟨hif, hswitch, hforeach, huntil, hscope⟩ := hbox
    by_cases hstart : kind = "Start"
    · subst hstart
      simp [Action.appearance, Action.kind, caption, outline]
    · simp [Action.appearance, Action.kind, caption, outline, hif, hswitch, hforeach, huntil,
        hscope, hstart]
  | condition runAfter yes no => simp [Action.appearance, Action.kind, caption, outline]
  | switch runAfter cases default => simp [Action.appearance, Action.kind, caption, outline]
  | scope kind runAfter body =>
    cases kind with
    | _ => simp [Action.appearance, Action.kind, ScopeKind.name, caption, outline]

namespace Declaration

/-- The line that declares the node of an action. -/
def nodeLine (styles : StyleTable) (d : Declaration) : Line :=
  .ofNode (nodeId d.name) (caption d.name d.action.kind) (outline styles d.action.kind)

/-- The line that puts the node of an action into the class of its kind. -/
def classLine (styles : StyleTable) (d : Declaration) : Line :=
  .inClass (nodeId d.name) (styleFor styles d.action.kind).className

/-- The node of an action with the line that follows it. -/
def nodeEntry (styles : StyleTable) (d : Declaration) : Line × Option Line :=
  (d.nodeLine styles, some (d.classLine styles))

end Declaration

namespace Diagram

/-- The start node with the line that follows it. -/
def startEntry : Line × Option Line :=
  (.ofNode startId "Start" .circle, some (.nodeStyle startId startStyle))

/-! ## The nodes that strokes leave -/

/-- A stroke that declares no node. -/
def Stroke.isPlain : Stroke → Bool
  | .node _ _ _ | .line _ => false
  | _ => true

theorem node_not_mem_of_plain {ss : List Stroke} (h : ∀ s ∈ ss, s.isPlain) (c : Canvas)
    (id label : String) (shape : Shape) : Line.node id label shape ∉ c.linesOfAll ss := by
  intro hmem
  obtain ⟨s, hs, hl⟩ := Canvas.mem_linesOfAll hmem
  have hplain := h s hs
  cases s with
  | line l => exact absurd hplain Bool.false_ne_true
  | node id text shape => exact absurd hplain Bool.false_ne_true
  | _ => simp [Canvas.linesOf, Canvas.blank, Line.ofEdge, Line.ofStyle, Line.ofTitle] at hl

/-- Strokes without nodes leave the nodes as they are. -/
theorem nodeLines_of_plain {ss : List Stroke} (h : ∀ s ∈ ss, s.isPlain) (c : Canvas)
    (rest : List Line) : nodeLines (c.linesOfAll ss ++ rest) = nodeLines rest :=
  nodeLines_append_of_none (node_not_mem_of_plain h c) rest

/-- The opening of an action declares its node, and its class right after it. -/
theorem nodeLines_opening (styles : StyleTable) {d : Declaration} (h : d.action.Sound)
    (c : Canvas) (rest : List Line) :
    nodeLines (c.linesOfAll (d.action.opening styles d.name) ++ rest)
      = d.nodeEntry styles :: nodeLines rest := by
  have hbox : ∀ s ∈ ((d.action.boxTitle? d.name).map (Stroke.openBox d.name)).toList,
      s.isPlain := by
    intro s hs
    simp only [Option.mem_toList, Option.map_eq_some_iff] at hs
    obtain ⟨title, -, rfl⟩ := hs
    rfl
  have hreports : ∀ s ∈ (d.action.reports d.name).map Stroke.report, s.isPlain := by
    intro s hs
    obtain ⟨r, -, rfl⟩ := List.mem_map.mp hs
    rfl
  -- the colours of the class stand after the pair, so they are part of what follows
  have hclass : ∀ (c : Canvas) (rest : List Line),
      nodeLines (c.linesOfAll [d.action.nodeStroke styles d.name,
          .assign (nodeId d.name) (styleFor styles d.action.kind)] ++ rest)
        = d.nodeEntry styles :: nodeLines rest := by
    intro c rest
    rw [Action.nodeStroke, appearance_eq styles d.name h]
    simp only [Canvas.linesOfAll, Canvas.linesOf]
    split
    · rfl
    · rfl
  rw [Action.opening, Canvas.linesOfAll_append, Canvas.linesOfAll_append, List.append_assoc,
    List.append_assoc, nodeLines_of_plain hbox, hclass, nodeLines_of_plain hreports]

/-- After the start node only its arrows are drawn. -/
theorem startStrokes_eq (actions : Actions) :
    ∃ rest, (∀ s ∈ rest, s.isPlain) ∧ startStrokes actions
      = [.node startId "Start" .circle, .line (.nodeStyle startId startStyle)] ++ rest := by
  refine ⟨_, fun s hs => ?_, List.append_assoc _ _ _⟩
  rcases List.mem_append.mp hs with hs | hs
  · split at hs
    · exact List.mem_singleton.mp hs ▸ rfl
    · exact absurd hs List.not_mem_nil
  · obtain ⟨name, -, rfl⟩ := List.mem_map.mp hs
    rfl

/-- The start node comes with its colours. -/
theorem nodeLines_startStrokes (actions : Actions) (c : Canvas) (rest : List Line) :
    nodeLines (c.linesOfAll (startStrokes actions) ++ rest) = startEntry :: nodeLines rest := by
  obtain ⟨arrows, hplain, heq⟩ := startStrokes_eq actions
  have hfirst : ∀ (c : Canvas) (rest : List Line),
      nodeLines (c.linesOfAll [.node startId "Start" .circle, .line (.nodeStyle startId startStyle)]
        ++ rest) = startEntry :: nodeLines rest := fun _ _ => rfl
  rw [heq, Canvas.linesOfAll_append, List.append_assoc, hfirst, nodeLines_of_plain hplain]

/-! ## The nodes of a trip -/

variable {actions : Actions} {styles : StyleTable} {ts : List Task} {m : Memo} {t : Trip}

theorem plain_arrows (m : Memo) (name dependency : String) :
    ∀ s ∈ m.arrows name dependency, s.isPlain := by
  intro s hs
  obtain ⟨source, -, rfl⟩ := List.mem_map.mp hs
  rfl

theorem plain_reports (state : Progress) (name dependency : String) :
    ∀ s ∈ state.reports name dependency, s.isPlain := by
  intro s hs
  cases state with
  | underway => exact List.mem_singleton.mp hs ▸ rfl
  | done => exact absurd hs List.not_mem_nil

/-- A trip declares the nodes of the declarations it draws. What comes after its strokes is kept in
view, since the class of the last node may be the last line of the trip. -/
theorem Walks.nodeLines_perm (hs : ∀ d ∈ actions.declarations, d.action.Sound)
    (h : Walks actions styles ts m t) (c : Canvas) (rest : List Line) :
    (nodeLines (c.linesOfAll t.strokes ++ rest)).Perm
      (t.drawn.map (Declaration.nodeEntry styles) ++ nodeLines rest) := by
  induction h generalizing c rest with
  | nil m => exact List.Perm.refl _
  | wire _ ih | leave _ ih | unknown _ _ ih =>
    rw [Trip.strokes_prepend, Canvas.linesOfAll_append, List.append_assoc,
      nodeLines_of_plain (by simp [Stroke.isPlain])]
    exact ih _ _
  | again _ _ _ ih => exact ih c rest
  | @fresh d ts m before inside t declared _ _ _ _ ih₁ ih₂ ih₃ =>
    have hclosing : ∀ s ∈ d.action.closing d.name, s.isPlain := by
      intro s hs
      simp only [Action.closing, Option.mem_toList, Option.map_eq_some_iff] at hs
      obtain ⟨title, -, rfl⟩ := hs
      rfl
    rw [Trip.drawn_prepend, List.cons_append, List.map_cons, List.cons_append, List.map_append,
      List.map_append]
    simp only [Trip.strokes_prepend, Canvas.linesOfAll_append, List.append_assoc]
    -- dependencies come first on the canvas, the action first among the declarations
    refine (ih₁ _ _).trans ?_
    rw [nodeLines_opening styles (hs d declared)]
    refine List.perm_middle.trans (List.Perm.cons _ (List.Perm.append_left _ ?_))
    refine (ih₂ _ _).trans (List.Perm.append_left _ ?_)
    have hreport : ∀ s ∈ [Stroke.report (.exitNodes d.name (d.exitsFrom inside.exits))],
        s.isPlain := fun s hs => List.mem_singleton.mp hs ▸ rfl
    rw [nodeLines_of_plain hclosing, nodeLines_of_plain hreport]
    exact ih₃ _ _
  | @met name dependency d state ts m t _ _ _ ih =>
    rw [Trip.strokes_prepend, Canvas.linesOfAll_append, List.append_assoc, nodeLines_of_plain]
    · exact ih _ _
    · exact List.forall_mem_append.mpr
        ⟨plain_reports state name dependency, plain_arrows m name dependency⟩
  | @force name dependency d ts m first t _ _ _ _ ih₁ ih₂ =>
    simp only [Trip.strokes_prepend, Trip.drawn_prepend, Canvas.linesOfAll_append,
      List.append_assoc, List.map_append]
    refine (ih₁ _ _).trans (List.Perm.append_left _ ?_)
    rw [nodeLines_of_plain (plain_arrows first.memo name dependency)]
    exact ih₂ _ _

/-- A diagram declares its start node and the nodes of the declarations that were drawn. -/
theorem Drawn.nodeLines_perm {config : Config} {c : Conversion} (h : Drawn config actions c t) :
    (nodeLines c.canvas.lines).Perm
      (startEntry :: t.drawn.map (Declaration.nodeEntry config.styles)) := by
  obtain ⟨used, hused⟩ := h.lines_eq
  have hlegend : nodeLines (used.map Line.ofStyle) = [] := by
    rw [← List.append_nil (used.map Line.ofStyle), nodeLines_append_of_none]
    · rfl
    · simp [Line.ofStyle]
  have hperm := h.walks.nodeLines_perm h.readable.sound
    (Canvas.blank.drawAll (startStrokes actions)).1 (used.map Line.ofStyle)
  rw [hlegend, List.append_nil] at hperm
  rw [hused, Canvas.linesOfAll_append, List.append_assoc, nodeLines_startStrokes]
  exact hperm.cons _

/-! ## Every action once -/

/-- The declarations drawn are the ones that have been visited, in order, and no name recurs. -/
theorem Drawn.names_drawn {config : Config} {c : Conversion} (h : Drawn config actions c t) :
    t.drawn.map Declaration.name = c.memo.visits.keys ∧
      (t.drawn.map Declaration.name).Nodup := by
  have hkeys := h.walks.keys_visits
  have hnodup := h.walks.nodup_visits List.nodup_nil
  rw [hkeys] at hnodup
  rw [h.memo_eq, hkeys]
  exact ⟨rfl, hnodup⟩

/-- In a tree of distinct names the declarations drawn are all there are. -/
theorem Drawn.drawn_perm {config : Config} {c : Conversion} (h : Drawn config actions c t)
    (hd : actions.Distinct) : t.drawn.Perm actions.declarations := by
  refine (List.perm_ext_iff_of_nodup ?_ ?_).mpr fun d => ?_
  · exact List.Nodup.of_map _ h.names_drawn.2
  · exact List.Nodup.of_map _ hd
  · exact ⟨h.walks.drawn_declared d, h.walks.mem_drawn hd d⟩

/-- Whatever an accepted definition holds, each name is drawn at most once, and the nodes of the
diagram are the start node and those of the actions drawn. If all names of the tree are different,
every action is finished and has its node. -/
theorem convert_nodes {config : Config} {log : Log} {definition : Value} {c : Conversion}
    (h : (convert config log definition).2 = .ok c) :
    ∃ actions, Definition.tree? definition = some actions ∧
      (∃ drawn : List Declaration, (∀ d ∈ drawn, d ∈ actions.declarations) ∧
        drawn.map Declaration.name = c.memo.visits.keys ∧ (drawn.map Declaration.name).Nodup ∧
        (nodeLines c.canvas.lines).Perm
          (startEntry :: drawn.map (Declaration.nodeEntry config.styles))) ∧
      (actions.Distinct →
        (∀ d ∈ actions.declarations, c.memo.progress? d.name = some .done) ∧
        (nodeLines c.canvas.lines).Perm
          (startEntry :: actions.declarations.map (Declaration.nodeEntry config.styles))) := by
  obtain ⟨actions, t, htree, ht⟩ := convert_drawn h
  refine ⟨actions, htree, ⟨t.drawn, ht.walks.drawn_declared, ht.names_drawn.1, ht.names_drawn.2,
    ht.nodeLines_perm⟩, fun hd => ⟨ht.done hd, ?_⟩⟩
  exact ht.nodeLines_perm.trans (((ht.drawn_perm hd).map _).cons _)

/-- The sample has a node for each of its five actions. -/
theorem convert_nodes_sample :
    (nodeLines (Conversion.ofEntries {} sampleEntries).canvas.lines).Perm
      (startEntry :: sampleActions.declarations.map (Declaration.nodeEntry [])) := by
  obtain ⟨actions, htree, -, hdistinct⟩ := convert_nodes convert_sample.1
  rw [tree?_sample.1, Option.some.injEq] at htree
  subst htree
  exact (hdistinct distinct_sample).2

end Diagram

end Flowchart
