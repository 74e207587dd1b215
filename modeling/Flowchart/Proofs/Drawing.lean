import Flowchart.Proofs.Canvas
import Flowchart.Proofs.Coverage
import Flowchart.Proofs.Defects
import Flowchart.Proofs.Descriptions

/-!
# From a definition to its drawing

An accepted definition has a tree, and its diagram is what the walk over this tree leaves on the
canvas.

* `Definition.tree?` is the tree of a definition;
* `Drawn` ties a conversion to the trip over its tree, and `convert_drawn` says that every accepted
  definition has been drawn so. What is proved about trips thereby holds of diagrams.
-/

namespace Flowchart

/-- The tree of actions that a definition describes. -/
def Definition.tree? (definition : Value) : Option Actions :=
  (Definition.actions? definition).map fun entries => (Actions.ofEntries entries).1

namespace Diagram

/-! ## Strokes of a walk -/

variable {actions : Actions} {styles : StyleTable} {ts : List Task} {m : Memo} {t : Trip}

/-- A trip writes no lines but those of its actions and arrows. -/
theorem Walks.line_not_mem (h : Walks actions styles ts m t) (l : Line) : .line l ∉ t.strokes := by
  induction h with
  | nil m => simp
  | wire _ ih | leave _ ih | again _ _ _ ih | unknown _ _ ih => simpa using ih
  | @fresh d ts m before inside t _ _ _ _ _ ih₁ ih₂ ih₃ =>
    have hopening : .line l ∉ d.action.opening styles d.name := by
      simp [Action.opening, Action.nodeStroke]
    have hclosing : .line l ∉ d.action.closing d.name := by simp [Action.closing]
    simp [ih₁, ih₂, ih₃, hopening, hclosing]
  | @met name dependency d state ts m t _ _ _ ih =>
    cases state with
    | underway => simpa [Progress.reports, Memo.arrows] using ih
    | done => simpa [Progress.reports, Memo.arrows] using ih
  | force _ _ _ _ ih₁ ih₂ => simp [ih₁, ih₂, Memo.arrows]

/-- The strokes of an action's own are no arrows. -/
theorem connect_mem_drawing {d : Declaration} {before inside : List Stroke} {r : Diagnostic}
    {source target note : String} {text : Option String} :
    .connect source target text note ∈
        before ++ (d.action.opening styles d.name ++ inside ++ d.action.closing d.name)
          ++ [Stroke.report r] ↔
      .connect source target text note ∈ before ∨ .connect source target text note ∈ inside := by
  have hopening : .connect source target text note ∉ d.action.opening styles d.name := by
    simp [Action.opening, Action.nodeStroke]
  have hclosing : .connect source target text note ∉ d.action.closing d.name := by
    simp [Action.closing]
  simp [hopening, hclosing]

/-- The arrows from a dependency start at its exit nodes and have no text. -/
theorem connect_mem_arrows {m : Memo} {name dependency source target note : String}
    {text : Option String} :
    .connect source target text note ∈ m.arrows name dependency ↔
      source ∈ m.exitsOf dependency ∧ target = nodeId name ∧ text = none ∧ note = "" := by
  simp only [Memo.arrows, List.mem_map, Stroke.connect.injEq]
  constructor
  · rintro ⟨x, hx, rfl, rfl, rfl, rfl⟩
    exact ⟨hx, rfl, rfl, rfl⟩
  · rintro ⟨hx, rfl, rfl, rfl⟩
    exact ⟨source, hx, rfl, rfl, rfl, rfl⟩

theorem connect_not_mem_reports {state : Progress} {name dependency source target note : String}
    {text : Option String} :
    .connect source target text note ∉ state.reports name dependency := by
  cases state with
  | underway => simp [Progress.reports]
  | done => simp [Progress.reports]

theorem mem_startingNames {name : String} :
    name ∈ startingNames actions ↔ ∃ a, (name, a) ∈ actions ∧ a.runAfter = [] := by
  simp [startingNames, Table.keys]

/-- The start node leads to the top-level actions that run after nothing. -/
theorem connect_mem_startStrokes {source target note : String} {text : Option String} :
    .connect source target text note ∈ startStrokes actions ↔
      ∃ name ∈ startingNames actions, source = startId ∧ target = nodeId name ∧ text = none ∧
        note = "" := by
  have hreport : .connect source target text note
      ∉ if (startingNames actions).isEmpty then [Stroke.report .noStartActions] else [] := by
    split
    · simp
    · simp
  simp only [startStrokes, List.mem_append, List.mem_cons, List.not_mem_nil, or_false, reduceCtorEq,
    false_or, hreport, List.mem_map, Stroke.connect.injEq]
  constructor
  · rintro ⟨name, hname, rfl, rfl, rfl, rfl⟩
    exact ⟨name, hname, rfl, rfl, rfl, rfl⟩
  · rintro ⟨name, hname, rfl, rfl, rfl, rfl⟩
    exact ⟨name, hname, rfl, rfl, rfl, rfl⟩

/-- The only line that a drawing writes as it is colours the start node. -/
theorem Walks.line_eq (h : Walks actions styles ts m t) (l : Line)
    (hl : .line l ∈ startStrokes actions ++ t.strokes) : l = .nodeStyle startId startStyle := by
  rcases List.mem_append.mp hl with hl | hl
  · simp only [startStrokes, List.mem_append, List.mem_cons, List.not_mem_nil, or_false,
      List.mem_map] at hl
    rcases hl with (hl | hl) | ⟨name, -, hl⟩
    · simpa using hl
    · split at hl
      · simp at hl
      · exact absurd hl List.not_mem_nil
    · cases hl
  · exact absurd hl (h.line_not_mem l)

/-- The lines that a drawing writes as they are hold no arrows. -/
theorem Walks.line_isEdge (h : Walks actions styles ts m t) (l : Line)
    (hl : .line l ∈ startStrokes actions ++ t.strokes) : l.isEdge = false :=
  h.line_eq l hl ▸ rfl

/-! ## Diagrams -/

/-- What a diagram asks of the walk over the top-level actions. -/
def rootTasks (actions : Actions) : List Task :=
  memberTasks ⟨none, .none, none, ""⟩ true (actions.children [])

/-- At the top level there are only visits. -/
theorem rootTasks_eq (actions : Actions) :
    rootTasks actions = (actions.children []).map .visit := by
  rw [rootTasks]
  generalize actions.children [] = ds, true = isFirst
  induction ds generalizing isFirst with
  | nil => rfl
  | cons d rest ih => exact congrArg (.visit d :: ·) (ih false)

theorem rootTasks_visit {task : Task} (h : task ∈ rootTasks actions) : ∃ d, task = .visit d := by
  rw [rootTasks_eq, List.mem_map] at h
  obtain ⟨d, -, rfl⟩ := h
  exact ⟨d, rfl⟩

/-- The canvas that a trip over a tree leaves. -/
def Trip.canvas (actions : Actions) (t : Trip) : Canvas :=
  (Canvas.blank.drawAll (startStrokes actions ++ t.strokes)).1

/-- A conversion that was drawn by a trip over a tree. -/
structure Drawn (config : Config) (actions : Actions) (c : Conversion) (t : Trip) : Prop where
  readable : actions.Readable
  walks : Walks actions config.styles (rootTasks actions) .empty t
  memo_eq : c.memo = t.memo
  /-- After the strokes there is at most the legend. -/
  canvas_eq : c.canvas
    = if config.legend then (t.canvas actions).addLegend config.styles else t.canvas actions
  /-- Whatever happens while drawing happens last. -/
  events_eq : ∃ earlier, (∀ e ∈ earlier, e.IsPreliminary) ∧
    c.events = earlier ++ (Canvas.blank.drawAll (startStrokes actions ++ t.strokes)).2

section Drawn

variable {config : Config} {c : Conversion}

theorem Drawn.lines_eq (h : Drawn config actions c t) : ∃ used : List Style, c.canvas.lines
    = Canvas.blank.linesOfAll (startStrokes actions ++ t.strokes) ++ used.map Line.ofStyle := by
  have hdrawn : (t.canvas actions).lines
      = Canvas.blank.linesOfAll (startStrokes actions ++ t.strokes) := by
    rw [Trip.canvas, Canvas.lines_drawAll]
    rfl
  rw [h.canvas_eq, ← hdrawn]
  split
  · obtain ⟨used, hused, -⟩ := (t.canvas actions).addLegend_eq config.styles
    exact ⟨used, hused⟩
  · exact ⟨[], (List.append_nil _).symm⟩

theorem Drawn.edges_eq (h : Drawn config actions c t) :
    c.canvas.edges = (Canvas.blank.drawAll (startStrokes actions ++ t.strokes)).1.edges := by
  rw [h.canvas_eq]
  split
  · obtain ⟨used, -, hedges⟩ := (t.canvas actions).addLegend_eq config.styles
    exact hedges
  · rfl

theorem Drawn.tidy (h : Drawn config actions c t) : c.canvas.Tidy := by
  have htidy := Canvas.tidy_blank.drawAll h.walks.line_isEdge
  rw [h.canvas_eq]
  split
  · exact htidy.addLegend config.styles
  · exact htidy

end Drawn

/-- The session draws the start strokes and the walk one after the other on the same canvas. -/
theorem events_ofActions (config : Config) (actions : Actions) :
    (Conversion.ofActions config actions).events
      = (Index.ofActions actions).2.map .report
        ++ (Canvas.blank.drawAll (startStrokes actions
          ++ ((Plan.ofActions actions config.styles).walkAll actions ⟨none, .none, none, ""⟩
            .empty).strokes)).2 := by
  rw [Canvas.drawAll_append, ← List.append_assoc]
  rfl

/-- The legend comes last. -/
theorem canvas_ofActions (config : Config) (actions : Actions) :
    let canvas := (Canvas.blank.drawAll (startStrokes actions
      ++ ((Plan.ofActions actions config.styles).walkAll actions ⟨none, .none, none, ""⟩
        .empty).strokes)).1
    (Conversion.ofActions config actions).canvas
      = if config.legend then canvas.addLegend config.styles else canvas := by
  dsimp only
  rw [Canvas.drawAll_append]
  rfl

/-- What happens on the way: what is found in the index, and then the drawing. -/
theorem ofActions_drawn (config : Config) (hr : actions.Readable) :
    ∃ t, Drawn config actions (Conversion.ofActions config actions) t ∧
      (Conversion.ofActions config actions).events
        = (Index.ofActions actions).2.map .report
          ++ (Canvas.blank.drawAll (startStrokes actions ++ t.strokes)).2 := by
  obtain ⟨t, ht, -, hstrokes, hmemo⟩ :=
    walks_walkAll config.styles hr.wellFormed ⟨none, .none, none, ""⟩ .empty
  have hevents : (Conversion.ofActions config actions).events
      = (Index.ofActions actions).2.map .report
        ++ (Canvas.blank.drawAll (startStrokes actions ++ t.strokes)).2 := by
    rw [events_ofActions, hstrokes]
  refine ⟨t, ⟨hr, ht, hmemo.symm, ?_, (Index.ofActions actions).2.map .report, ?_, hevents⟩,
    hevents⟩
  · rw [canvas_ofActions, ← hstrokes]
    rfl
  · intro e he
    obtain ⟨r, hr, rfl⟩ := List.mem_map.mp he
    exact Index.preliminary_addAll [] _ r hr

/-- Before all that, the entries are read. -/
theorem ofEntries_drawn (config : Config) (entries : List (Value × Value)) :
    ∃ t, Drawn config (Actions.ofEntries entries).1 (Conversion.ofEntries config entries) t ∧
      (Conversion.ofEntries config entries).events
        = (Actions.ofEntries entries).2
          ++ ((Index.ofActions (Actions.ofEntries entries).1).2.map .report
            ++ (Canvas.blank.drawAll
              (startStrokes (Actions.ofEntries entries).1 ++ t.strokes)).2) := by
  obtain ⟨t, ht, hdrawing⟩ := ofActions_drawn config (readable_ofEntries entries)
  obtain ⟨earlier, hearlier, hevents⟩ := ht.events_eq
  refine ⟨t, ⟨ht.readable, ht.walks, ht.memo_eq, ht.canvas_eq,
    (Actions.ofEntries entries).2 ++ earlier, ?_, ?_⟩, ?_⟩
  · intro e he
    exact (List.mem_append.mp he).elim (preliminary_ofEntries entries e) (hearlier e)
  · rw [List.append_assoc, ← hevents]
    rfl
  · rw [← hdrawing]
    rfl

/-- A definition with a tree is drawn from the tree alone. What is reported on the way goes to the
log, also if the work has halted and there is no diagram. -/
theorem convert_of_tree (config : Config) (log : Log) {definition : Value}
    (htree : Definition.tree? definition = some actions) :
    ∃ c t, Drawn config actions c t ∧
      convert config log definition
        = (log.recordAll c.reports,
            match c.halt? with
            | some e => .error (.limit e)
            | none => .ok c) := by
  rw [Definition.tree?, Option.map_eq_some_iff] at htree
  obtain ⟨entries, hentries, rfl⟩ := htree
  obtain ⟨t, ht, -⟩ := ofEntries_drawn config entries
  refine ⟨Conversion.ofEntries config entries, t, ht, ?_⟩
  simp only [convert, hentries]
  rfl

/-- A definition that is accepted has a tree. -/
theorem convert_drawn {config : Config} {log : Log} {definition : Value} {c : Conversion}
    (h : (convert config log definition).2 = .ok c) :
    ∃ actions t, Definition.tree? definition = some actions ∧ Drawn config actions c t := by
  cases htree : Definition.tree? definition with
  | none =>
    rw [Definition.tree?, Option.map_eq_none_iff] at htree
    simp only [convert, htree] at h
    cases h
  | some actions =>
    obtain ⟨c', t, ht, hconvert⟩ := convert_of_tree config log htree
    rw [hconvert] at h
    cases hhalt : c'.halt? with
    | some e => simp [hhalt] at h
    | none =>
      simp only [hhalt, Except.ok.injEq] at h
      exact ⟨actions, t, rfl, h ▸ ht⟩

/-- The diagram of an accepted definition is drawn from the tree of the definition. -/
theorem convert_drawn_of_tree {config : Config} {log : Log} {definition : Value} {c : Conversion}
    (h : (convert config log definition).2 = .ok c)
    (htree : Definition.tree? definition = some actions) : ∃ t, Drawn config actions c t := by
  obtain ⟨actions', t, htree', ht⟩ := convert_drawn h
  rw [htree, Option.some.injEq] at htree'
  exact ⟨t, htree' ▸ ht⟩

/-- A definition with actions is accepted unless the work halts. -/
theorem convert_eq_ok {config : Config} {log : Log} {definition : Value}
    {entries : List (Value × Value)} (hentries : Definition.actions? definition = some entries)
    (hhalt : (Conversion.ofEntries config entries).halt? = none) :
    (convert config log definition).2 = .ok (Conversion.ofEntries config entries) := by
  simp only [convert, hentries, hhalt]
  rfl

/-- In a tree of distinct names the walk finishes every action. -/
theorem Drawn.done {config : Config} {c : Conversion} (h : Drawn config actions c t)
    (hd : actions.Distinct) : ∀ d ∈ actions.declarations, c.memo.progress? d.name = some .done := by
  intro d hmem
  rw [h.memo_eq]
  have hvisited : t.memo.Visited d.name :=
    h.walks.visited_iff.mpr (Or.inr ⟨d, h.walks.mem_drawn hd d hmem, rfl⟩)
  exact h.walks.done_of_visited hvisited (by simp [Memo.progress?, Memo.empty])

/-- An arrow among the lines of a diagram was asked for by a stroke, which says the text on it. -/
theorem Drawn.connect_of_edge_mem_lines {config : Config} {c : Conversion}
    (h : Drawn config actions c t) {source target : String} {label : Option String}
    (hedge : Line.edge source target label ∈ c.canvas.lines) :
    ∃ text note, .connect source target text note ∈ startStrokes actions ++ t.strokes ∧
      Line.edge source target label = .ofEdge source target text := by
  obtain ⟨used, hused⟩ := h.lines_eq
  rw [hused] at hedge
  rcases List.mem_append.mp hedge with hedge | hedge
  · exact Canvas.connect_of_edge_mem_lines h.walks.line_isEdge hedge
  · simp [Line.ofStyle] at hedge

theorem Drawn.connect_of_edge_mem {config : Config} {c : Conversion} (h : Drawn config actions c t)
    {source target : String} {label : Option String}
    (hedge : Line.edge source target label ∈ c.canvas.lines) :
    ∃ text note, .connect source target text note ∈ startStrokes actions ∨
      .connect source target text note ∈ t.strokes := by
  obtain ⟨text, note, hmem, -⟩ := h.connect_of_edge_mem_lines hedge
  exact ⟨text, note, List.mem_append.mp hmem⟩

/-- The arrows of a diagram are those that its strokes ask for. -/
theorem Drawn.mem_edgeTexts {config : Config} {c : Conversion} (h : Drawn config actions c t)
    {e : String} : e ∈ edgeTexts c.canvas.lines ↔
      ∃ s ∈ startStrokes actions ++ t.strokes, s.arrow? = some e := by
  rw [← h.tidy.edges_eq, h.edges_eq, Canvas.mem_edges_drawAll]
  simp only [Canvas.blank, List.not_mem_nil, false_or]

end Diagram

/-! ## Definitions with a given tree -/

/-- The definition with these actions. -/
def definitionOf (entries : List (Value × Value)) : Value :=
  .map [(.str "actions", .map entries)]

theorem tree?_definitionOf (entries : List (Value × Value)) :
    Definition.tree? (definitionOf entries) = some (Actions.ofEntries entries).1 := rfl

namespace Actions.Readable

variable {actions : Actions}

/-- A readable tree is the tree of the definition that describes it. -/
theorem tree?_definitionOf (h : actions.Readable) :
    Definition.tree? (definitionOf actions.entries) = some actions := by
  rw [Flowchart.tree?_definitionOf, h.ofEntries_entries]

/-- What is drawn from this definition is drawn from the tree. -/
theorem conversion_entries (h : actions.Readable) (config : Config) :
    Conversion.ofEntries config actions.entries = Conversion.ofActions config actions := by
  rw [Conversion.ofEntries, h.ofEntries_entries]
  rfl

/-- This definition is accepted if the tree can be drawn, and its diagram is that of the tree. -/
theorem convert_definitionOf (h : actions.Readable) {config : Config} (log : Log)
    (hhalt : (Conversion.ofActions config actions).halt? = none) :
    (convert config log (definitionOf actions.entries)).2
      = .ok (Conversion.ofActions config actions) := by
  rw [← h.conversion_entries] at hhalt ⊢
  exact Diagram.convert_eq_ok rfl hhalt

/-- What is reported on the way goes to the log. -/
theorem log_definitionOf (h : actions.Readable) (config : Config) (log : Log) :
    (convert config log (definitionOf actions.entries)).1
      = log.recordAll (Conversion.ofActions config actions).reports := by
  rw [← h.conversion_entries]
  rfl

end Actions.Readable

/-! ## Sample definitions

The first one holds what the theorems about diagrams speak of: an action that runs after one
declared later, one inside a switch that runs after one outside of it, an empty case and a default
branch. -/

/-- A definition with a switch between two plain actions. -/
def sampleEntries : List (Value × Value) :=
  [(.str "Notify", .map [(.str "type", .str "Compose"),
      (.str "runAfter", .map [(.str "Check", .null)])]),
    (.str "Check", .map [(.str "type", .str "Switch"),
      (.str "cases", .map [
        (.str "Paid", .map [(.str "actions", .map [
          (.str "Send", .map [(.str "type", .str "Http"),
            (.str "runAfter", .map [(.str "Log", .null)])])])]),
        (.str "Open", .map [])]),
      (.str "default", .map [(.str "actions", .map [
        (.str "Ask", .map [(.str "type", .str "Compose")])])])]),
    (.str "Log", .map [(.str "type", .str "Compose")])]

/-- The tree of the sample. Turned around, the sample has the tree turned around. -/
def sampleActions : Actions :=
  [("Notify", .simple "Compose" ["Check"] []),
    ("Check", .switch []
      [("Paid", [("Send", .simple "Http" ["Log"] [])]), ("Open", [])]
      (some [("Ask", .simple "Compose" [] [])])),
    ("Log", .simple "Compose" [] [])]

theorem ofEntries_sample : Actions.ofEntries sampleEntries = (sampleActions, []) ∧
    Actions.ofEntries sampleEntries.reverse = (sampleActions.reverse, []) := by
  have hreadable : sampleActions.Readable := by decide
  have hreverse : Actions.Readable sampleActions.reverse := by decide
  exact ⟨hreadable.ofEntries_entries, hreverse.ofEntries_entries⟩

theorem tree?_sample : Definition.tree? (definitionOf sampleEntries) = some sampleActions ∧
    Definition.tree? (definitionOf sampleEntries.reverse) = some sampleActions.reverse := by
  rw [tree?_definitionOf, tree?_definitionOf, ofEntries_sample.1, ofEntries_sample.2]
  exact ⟨rfl, rfl⟩

/-- The sample is accepted, either way around. -/
theorem convert_sample :
    (convert {} ⟨[], []⟩ (definitionOf sampleEntries)).2
        = .ok (Conversion.ofEntries {} sampleEntries) ∧
      (convert {} ⟨[], []⟩ (definitionOf sampleEntries.reverse)).2
        = .ok (Conversion.ofEntries {} sampleEntries.reverse) := by
  have hentries : ∀ entries, Definition.actions? (definitionOf entries) = some entries :=
    fun _ => rfl
  refine ⟨Diagram.convert_eq_ok (hentries _) ?_, Diagram.convert_eq_ok (hentries _) ?_⟩
  · rw [Conversion.halt?, Conversion.ofEntries, ofEntries_sample.1]
    decide +kernel
  · rw [Conversion.halt?, Conversion.ofEntries, ofEntries_sample.2]
    decide +kernel

theorem distinct_sample : sampleActions.Distinct := by
  rw [Actions.Distinct]
  decide

/-- A definition in which actions run after their siblings only, with boxes inside a box and a
switch that has nothing to choose from. -/
def nestedEntries : List (Value × Value) :=
  [(.str "Each", .map [(.str "type", .str "Foreach"),
      (.str "actions", .map [
        (.str "Check", .map [(.str "type", .str "If"),
          (.str "actions", .map [(.str "Keep", .map [(.str "type", .str "Compose")])])]),
        (.str "Store", .map [(.str "type", .str "Http"),
          (.str "runAfter", .map [(.str "Check", .null)])])])]),
    (.str "Route", .map [(.str "type", .str "Switch"),
      (.str "runAfter", .map [(.str "Each", .null)])]),
    (.str "Done", .map [(.str "type", .str "Compose"),
      (.str "runAfter", .map [(.str "Route", .null)])])]

/-- The tree of this definition. -/
def nestedActions : Actions :=
  [("Each", .scope .forEach []
      [("Check", .condition [] [("Keep", .simple "Compose" [] [])] []),
        ("Store", .simple "Http" ["Check"] [])]),
    ("Route", .switch ["Each"] [] none),
    ("Done", .simple "Compose" ["Route"] [])]

theorem ofEntries_nested : Actions.ofEntries nestedEntries = (nestedActions, []) := by
  have hreadable : nestedActions.Readable := by decide
  exact hreadable.ofEntries_entries

theorem tree?_nested : Definition.tree? (definitionOf nestedEntries) = some nestedActions := by
  rw [tree?_definitionOf, ofEntries_nested]

/-- It is accepted, too. -/
theorem convert_nested :
    (convert {} ⟨[], []⟩ (definitionOf nestedEntries)).2
      = .ok (Conversion.ofEntries {} nestedEntries) := by
  refine Diagram.convert_eq_ok rfl ?_
  rw [Conversion.halt?, Conversion.ofEntries, ofEntries_nested]
  decide +kernel

theorem distinct_nested : nestedActions.Distinct := by
  rw [Actions.Distinct]
  decide

end Flowchart
