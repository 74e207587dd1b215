import Flowchart.Proofs.Boxes
import Flowchart.Proofs.Classes
import Flowchart.Proofs.Order

/-!
# Lines and the reports about them

Drawing an arrow is reported, and so is opening a box, closing it, and giving colours to a class.
The log can therefore be read beside the lines of the diagram.

* `Mark` is what such a line and its report have in common. `marks` reads the marks of lines, with
  the titles of the open boxes in view, since the last line of a box does not repeat its title;
* `Nested.marks_linesOfAll`: strokes leave the same marks on the canvas and in the log, in the same
  order;
* `Walks.memo_exits_eq`: the exit nodes that a trip reports are those that it adds to the memory;
* `convert_marks` says both of a diagram up to its legend, which is not reported.
-/

namespace Flowchart

namespace Diagram

/-! ## Marks -/

/-- What a line and the report about it have in common. -/
inductive Mark where
  | arrow (source target : String)
  | opened (title : String)
  /-- The title of the box, unless none is open. -/
  | closed (title : Option String)
  | coloured (className : String)
deriving DecidableEq, Repr

/-- The mark of a line among open boxes with these titles, innermost first. -/
def Line.mark? (titles : List String) : Line → Option Mark
  | edge source target _ => some (.arrow source target)
  | openSubgraph title => some (.opened title)
  | closeSubgraph => some (.closed titles.head?)
  | classDef className _ _ => some (.coloured className)
  | node _ _ _ | inClass _ _ | nodeStyle _ _ | verbatim _ => none

/-- The titles of the open boxes after a line. -/
def Line.titlesAfter (titles : List String) : Line → List String
  | openSubgraph title => title :: titles
  | closeSubgraph => titles.tail
  | _ => titles

/-- The marks of lines in order. -/
def marks (titles : List String) : List Line → List Mark
  | [] => []
  | l :: rest => (l.mark? titles).toList ++ marks (l.titlesAfter titles) rest

end Diagram

open Diagram

namespace Diagnostic

/-- The mark of a report about a line. A title is meant in the form of a label. -/
def mark? : Diagnostic → Option Mark
  | connected source target _ => some (.arrow source target)
  | subgraphStarted _ title => some (.opened (labelText title))
  | subgraphEnded _ title => some (.closed (some (labelText title)))
  | classDefined className => some (.coloured className)
  | _ => none

/-- The action and the exit nodes that a report is about. -/
def exitNodes? : Diagnostic → Option (String × List String)
  | exitNodes action exits => some (action, exits)
  | _ => none

theorem IsRemark.mark?_eq {r : Diagnostic} (h : r.IsRemark) : r.mark? = none := by
  cases r with
  | connected source target note => exact h.elim
  | subgraphStarted action title => exact h.elim
  | subgraphEnded action title => exact h.elim
  | classDefined className => exact h.elim
  | _ => rfl

theorem IsEmptiness.exitNodes?_eq {name : String} {r : Diagnostic} (h : r.IsEmptiness name) :
    r.exitNodes? = none := by
  cases r with
  | exitNodes action exits => exact h.elim
  | _ => rfl

/-- Before the drawing nothing is reported about lines or exit nodes. -/
theorem unmarked_of_preliminary {r : Diagnostic} (h : (Event.report r).IsPreliminary) :
    r.mark? = none ∧ r.exitNodes? = none := by
  cases r with
  | malformedAction action defect => exact ⟨rfl, rfl⟩
  | duplicateName name previous => exact ⟨rfl, rfl⟩
  | _ => exact h.elim

end Diagnostic

namespace Diagram

/-! ## The marks of strokes -/

/-- A stroke draws marked lines only together with reports about them. -/
def Stroke.IsReported : Stroke → Prop
  | line l => ∀ titles, l.mark? titles = none
  | report r => r.IsRemark
  | _ => True

theorem marks_cons_of_none {titles : List String} {l : Line} (h : l.mark? titles = none)
    (rest : List Line) : marks titles (l :: rest) = marks titles rest := by
  have htitles : l.titlesAfter titles = titles := by
    cases l with
    | openSubgraph title => cases h
    | closeSubgraph => cases h
    | _ => rfl
  rw [marks, h, htitles, Option.toList_none, List.nil_append]

namespace Canvas

theorem reportsOfAll_append (c : Canvas) (ss ts : List Stroke) :
    c.reportsOfAll (ss ++ ts) = c.reportsOfAll ss ++ (c.drawAll ss).1.reportsOfAll ts := by
  induction ss generalizing c with
  | nil => rfl
  | cons s rest ih =>
    rw [List.cons_append, reportsOfAll, ih, reportsOfAll, List.append_assoc]
    rfl

/-- A stroke that leaves the boxes as they are is reported as it is marked. -/
theorem marks_linesOf (c : Canvas) {s : Stroke} (hflat : s.isFlat) (h : s.IsReported)
    (titles : List String) (rest : List Line) :
    marks titles (c.linesOf s ++ rest)
      = (c.apply s).2.filterMap Diagnostic.mark? ++ marks titles rest := by
  cases s with
  | line l => exact marks_cons_of_none (h titles) rest
  | node id text shape => rfl
  | connect source target text note =>
    simp only [linesOf, apply, addEdge]
    split
    · rfl
    · rfl
  | assign id style =>
    cases hlisted : c.classes.contains style.className with
    | false =>
      simp only [linesOf, apply, defineClass, addLine, hlisted]
      rfl
    | true =>
      simp only [linesOf, apply, defineClass, addLine, hlisted]
      rfl
  | openBox action title => cases hflat
  | closeBox action title => cases hflat
  | report r =>
    simp only [linesOf, apply, List.nil_append, List.filterMap_cons_none h.mark?_eq,
      List.filterMap_nil]

end Canvas

/-- Nested strokes leave the same marks on the canvas and in the log. -/
theorem Nested.marks_linesOfAll {ss : List Stroke} (hn : Nested ss)
    (h : ∀ s ∈ ss, s.IsReported) (c : Canvas) (titles : List String) (rest : List Line) :
    marks titles (c.linesOfAll ss ++ rest)
      = (c.reportsOfAll ss).filterMap Diagnostic.mark? ++ marks titles rest := by
  induction hn generalizing c titles rest with
  | nil => rfl
  | @flat s ss hflat _ ih =>
    rw [Canvas.linesOfAll, List.append_assoc, Canvas.marks_linesOf c hflat (h s List.mem_cons_self),
      ih fun s' hs' => h s' (List.mem_cons_of_mem _ hs'), Canvas.reportsOfAll,
      List.filterMap_append, List.append_assoc]
  | @box action title inside ss _ _ ihin ih =>
    have hin : ∀ s ∈ inside, s.IsReported := fun s hs => h s (by simp [hs])
    have hrest : ∀ s ∈ ss, s.IsReported := fun s hs => h s (by simp [hs])
    -- the canvases on which the inside of the box and what comes after it are drawn
    let c₁ := (c.draw (.openBox action title)).1
    let c₂ := ((c₁.drawAll inside).1.draw (.closeBox action title)).1
    have hlines : c.linesOfAll (.openBox action title :: (inside ++ .closeBox action title :: ss))
        = .ofTitle title :: (c₁.linesOfAll inside ++ .closeSubgraph :: c₂.linesOfAll ss) := by
      rw [Canvas.linesOfAll, Canvas.linesOfAll_append]
      rfl
    have hreports :
        c.reportsOfAll (.openBox action title :: (inside ++ .closeBox action title :: ss))
          = .subgraphStarted action title
            :: (c₁.reportsOfAll inside ++ .subgraphEnded action title :: c₂.reportsOfAll ss) := by
      rw [Canvas.reportsOfAll, Canvas.reportsOfAll_append]
      rfl
    have hend : ∀ ls, marks (labelText title :: titles) (.closeSubgraph :: ls)
        = .closed (some (labelText title)) :: marks titles ls := fun _ => rfl
    rw [hlines, hreports, List.cons_append, List.append_assoc, List.cons_append, marks]
    simp only [Line.ofTitle, Line.mark?, Line.titlesAfter, Option.toList_some]
    rw [ihin hin, hend, ih hrest]
    simp [Diagnostic.mark?]

/-! ## Exit nodes -/

/-- The action and the exit nodes that a stroke reports. -/
def Stroke.exitNodes? : Stroke → Option (String × List String)
  | report r => r.exitNodes?
  | _ => none

theorem Canvas.filterMap_exitNodes? (c : Canvas) (ss : List Stroke) :
    (c.reportsOfAll ss).filterMap Diagnostic.exitNodes? = ss.filterMap Stroke.exitNodes? := by
  have hline : ∀ r : Diagnostic, r.IsOfLine → r.exitNodes? = none := by
    intro r hr
    cases r with
    | exitNodes action exits => exact hr.elim
    | _ => rfl
  rw [Canvas.filterMap_report? hline]
  refine List.filterMap_congr fun s _ => ?_
  cases s with
  | _ => rfl

theorem exitNodes?_startStrokes (actions : Actions) :
    (startStrokes actions).filterMap Stroke.exitNodes? = [] := by
  refine List.filterMap_eq_nil_iff.mpr fun s hs => ?_
  simp only [startStrokes, List.mem_append, List.mem_cons, List.not_mem_nil, or_false,
    List.mem_map] at hs
  rcases hs with ((rfl | rfl) | hs) | ⟨name, -, rfl⟩
  · rfl
  · rfl
  · split at hs
    · exact List.mem_singleton.mp hs ▸ rfl
    · exact absurd hs List.not_mem_nil
  · rfl

theorem exitNodes?_opening (styles : StyleTable) (name : String) (a : Action) :
    (a.opening styles name).filterMap Stroke.exitNodes? = [] := by
  refine List.filterMap_eq_nil_iff.mpr fun s hs => ?_
  cases s with
  | report r => exact Action.eq_noCases_of_report_mem_opening hs ▸ rfl
  | _ => rfl

theorem exitNodes?_closing (name : String) (a : Action) :
    (a.closing name).filterMap Stroke.exitNodes? = [] := by
  refine List.filterMap_eq_nil_iff.mpr fun s hs => ?_
  cases s with
  | report r => exact absurd hs Action.report_not_mem_closing
  | _ => rfl

variable {actions : Actions} {styles : StyleTable} {ts : List Task} {m : Memo} {t : Trip}

/-- The exit nodes that a trip reports are those that it adds to the memory, in the same order. -/
theorem Walks.memo_exits_eq (h : Walks actions styles ts m t) (hm : m.Sound)
    (hts : ∀ id r, .leave id r ∈ ts → r.exitNodes? = none) :
    t.memo.exits = m.exits ++ t.strokes.filterMap Stroke.exitNodes? := by
  have harrows : ∀ (m : Memo) (name dependency : String),
      (m.arrows name dependency).filterMap Stroke.exitNodes? = [] := by
    intro m name dependency
    refine List.filterMap_eq_nil_iff.mpr fun s hs => ?_
    obtain ⟨source, -, rfl⟩ := List.mem_map.mp hs
    rfl
  induction h with
  | nil m => exact (List.append_nil _).symm
  | wire _ ih | again _ _ _ ih | unknown _ _ ih =>
    exact ih hm fun id r hmem => hts id r (List.mem_cons_of_mem _ hmem)
  | @leave id r ts m t _ ih =>
    have hnone : (Stroke.report r).exitNodes? = none := hts id r List.mem_cons_self
    rw [Trip.strokes_prepend, List.filterMap_append, List.filterMap_cons_none hnone]
    exact ih hm fun id r hmem => hts id r (List.mem_cons_of_mem _ hmem)
  | @fresh d ts m before inside t _ new dependencies groups _ ih₁ ih₂ ih₃ =>
    have hbefore := dependencies.later.sound (hm.start new)
    have hinside := groups.later.sound hbefore
    have hunderway : inside.memo.progress? d.name = some .underway := by
      rw [groups.underway_iff, dependencies.underway_iff, Memo.progress?_start, if_pos rfl]
    have hfinish : (inside.memo.finish d.name (d.exitsFrom inside.exits)).exits
        = inside.memo.exits ++ [(d.name, d.exitsFrom inside.exits)] :=
      hinside.exits_finish (by simp [hunderway]) _
    have hstart : (m.start d.name).exits = m.exits := rfl
    rw [Trip.memo_prepend, ih₃ (hinside.finish hunderway _)
        (fun id r hmem => hts id r (List.mem_cons_of_mem _ hmem)), hfinish,
      ih₂ hbefore (fun id r hmem => (isEmptiness_of_leave_mem_tasks hmem).exitNodes?_eq),
      ih₁ (hm.start new) (by simp [Declaration.dependencyTasks]), hstart]
    simp [List.filterMap_append, exitNodes?_opening, exitNodes?_closing, Stroke.exitNodes?,
      Diagnostic.exitNodes?]
  | @met name dependency d state ts m t _ _ _ ih =>
    have hreports : (state.reports name dependency).filterMap Stroke.exitNodes? = [] := by
      cases state with
      | underway => rfl
      | done => rfl
    rw [Trip.strokes_prepend, List.filterMap_append, List.filterMap_append, hreports, harrows]
    exact ih hm fun id r hmem => hts id r (List.mem_cons_of_mem _ hmem)
  | @force name dependency d ts m first t _ _ drawn _ ih₁ ih₂ =>
    rw [Trip.memo_prepend, ih₂ (drawn.later.sound hm)
      (fun id r hmem => hts id r (List.mem_cons_of_mem _ hmem)), ih₁ hm (by simp)]
    simp [List.filterMap_append, harrows]

/-! ## Histories -/

/-- The action that is finished at a moment, with its exit nodes. -/
def Moment.finished? : Moment → Option (String × List String)
  | finish d exits => some (d.name, exits)
  | _ => none

/-- Exit nodes are reported when an action is finished. -/
theorem Moment.exitNodes?_strokes (styles : StyleTable) {x : Moment}
    (h : ∀ id r, x = .leave id r → r.exitNodes? = none) :
    (x.strokes styles).filterMap Stroke.exitNodes? = x.finished?.toList := by
  cases x with
  | draw d => exact exitNodes?_opening styles d.name d.action
  | finish d exits =>
    rw [strokes, List.filterMap_append, exitNodes?_closing]
    rfl
  | leave id r => exact List.filterMap_cons_none (h id r rfl)
  | lead name dependency sources =>
    refine List.filterMap_eq_nil_iff.mpr fun s hs => ?_
    obtain ⟨source, -, rfl⟩ := List.mem_map.mp hs
    rfl
  | _ => rfl

/-- What a history reports as exit nodes are those of the actions finished in it. -/
theorem exitNodes?_history (styles : StyleTable) {history : List Moment}
    (h : ∀ id r, .leave id r ∈ history → r.exitNodes? = none) :
    (history.flatMap (Moment.strokes styles)).filterMap Stroke.exitNodes?
      = history.filterMap Moment.finished? := by
  induction history with
  | nil => rfl
  | cons x rest ih =>
    have hfirst : (x.strokes styles).filterMap Stroke.exitNodes? = x.finished?.toList :=
      Moment.exitNodes?_strokes styles fun id r heq => h id r (heq ▸ List.mem_cons_self)
    rw [List.flatMap_cons, List.filterMap_append, hfirst,
      ih fun id r hmem => h id r (List.mem_cons_of_mem _ hmem), List.filterMap_cons]
    cases x.finished? with
    | none => rfl
    | some e => rfl

/-! ## The legend -/

/-- The lines of a legend after others: the classes that have no colours there. -/
def legendOf (styles : StyleTable) (body : List Line) : List Line :=
  (legendClasses.filter fun name => name ∉ body.filterMap Line.class?).map fun name =>
    Line.ofStyle (classStyle styles name)

/-- A legend gives each class its colours where they are missing. -/
theorem Canvas.Listed.lines_addLegend {c : Canvas} (hc : c.Listed) (styles : StyleTable) :
    (c.addLegend styles).lines = c.lines ++ legendOf styles c.lines := by
  have hfold : ∀ (names : List String) (c : Canvas), names.Nodup →
      (names.foldl (fun c name => (c.defineClass (classStyle styles name)).1) c).lines
        = c.lines ++ (names.filter fun name => name ∉ c.classes).map fun name =>
            Line.ofStyle (classStyle styles name) := by
    intro names
    induction names with
    | nil => exact fun c _ => (List.append_nil _).symm
    | cons name rest ih =>
      intro c hnodup
      obtain ⟨hname, hrest⟩ := List.nodup_cons.mp hnodup
      -- the class is not looked for again
      have hsame : (rest.filter fun n => n ∉ (c.defineClass (classStyle styles name)).1.classes)
          = rest.filter fun n => n ∉ c.classes := by
        refine List.filter_congr fun n hn => ?_
        have hne : n ≠ name := fun heq => hname (heq ▸ hn)
        simp [mem_classes_defineClass, StyleTable.className_classStyle, hne]
      rw [List.foldl_cons, ih _ hrest, hsame, Canvas.defineClass, StyleTable.className_classStyle]
      by_cases hmem : name ∈ c.classes
      · simp [hmem]
      · simp [hmem, Canvas.addLine]
  rw [Canvas.addLegend, hfold legendClasses c (by decide), hc.classes_eq]
  rfl

/-! ## Diagrams -/

section Drawn

variable {config : Config} {c : Conversion}

/-- After the lines of the strokes there is the legend, if there is to be one. -/
theorem Drawn.lines_eq_legend (h : Drawn config actions c t) :
    let body := Canvas.blank.linesOfAll (startStrokes actions ++ t.strokes)
    c.canvas.lines = body ++ if config.legend then legendOf config.styles body else [] := by
  have hdrawn : (t.canvas actions).lines
      = Canvas.blank.linesOfAll (startStrokes actions ++ t.strokes) :=
    Canvas.lines_drawAll Canvas.blank _
  rw [h.canvas_eq, ← hdrawn]
  dsimp only
  split
  · exact (Trip.listed h.walks).lines_addLegend config.styles
  · exact (List.append_nil _).symm

/-- Whatever a drawing writes is reported as it is marked. -/
theorem Drawn.isReported (h : Drawn config actions c t) :
    ∀ s ∈ startStrokes actions ++ t.strokes, s.IsReported := by
  intro s hs
  cases s with
  | line l =>
    rw [h.walks.line_eq l hs]
    exact fun titles => rfl
  | report r => exact h.isRemark_of_report_mem r hs
  | _ => trivial

/-- The lines of a drawing bear the marks of its reports. -/
theorem Drawn.marks_eq (h : Drawn config actions c t) (hhalt : c.halt? = none) :
    marks [] (Canvas.blank.linesOfAll (startStrokes actions ++ t.strokes))
      = c.reports.filterMap Diagnostic.mark? := by
  obtain ⟨earlier, hearlier, hreports⟩ := h.reports_eq hhalt
  have hnone : earlier.filterMap Diagnostic.mark? = [] :=
    List.filterMap_eq_nil_iff.mpr fun r hr =>
      (Diagnostic.unmarked_of_preliminary (hearlier r hr)).1
  have hmarks := h.nested.marks_linesOfAll h.isReported Canvas.blank [] []
  rw [hreports, List.filterMap_append, hnone, List.nil_append]
  simpa [marks] using hmarks

/-- The exit nodes in the memory have been reported, an action after the other. -/
theorem Drawn.exitNodes_eq (h : Drawn config actions c t) (hhalt : c.halt? = none) :
    c.reports.filterMap Diagnostic.exitNodes? = c.memo.exits ∧
      t.strokes.filterMap Stroke.exitNodes? = c.memo.exits := by
  obtain ⟨earlier, hearlier, hreports⟩ := h.reports_eq hhalt
  have hnone : earlier.filterMap Diagnostic.exitNodes? = [] :=
    List.filterMap_eq_nil_iff.mpr fun r hr =>
      (Diagnostic.unmarked_of_preliminary (hearlier r hr)).2
  have hexits : t.memo.exits = [] ++ t.strokes.filterMap Stroke.exitNodes? :=
    h.walks.memo_exits_eq Memo.sound_empty fun id r hmem => absurd hmem leave_not_mem_memberTasks
  rw [h.memo_eq, hexits, hreports, List.filterMap_append, hnone, Canvas.filterMap_exitNodes?,
    List.filterMap_append, exitNodes?_startStrokes]
  exact ⟨rfl, rfl⟩

/-- In a history of the drawing, the actions are finished as the memory has them. -/
theorem Drawn.finished_eq (h : Drawn config actions c t) (hhalt : c.halt? = none)
    {history : List Moment}
    (hr : Recount actions config.styles (rootTasks actions) t [] history) :
    history.filterMap Moment.finished? = c.memo.exits := by
  rw [← (h.exitNodes_eq hhalt).2, ← hr.strokes_eq, exitNodes?_history config.styles]
  intro id r hmem
  obtain ⟨d, -, hd | hd⟩ := (h.hasHistory hhalt hr).asked _ hmem _ rfl
  · simp [Declaration.dependencyTasks] at hd
  · exact (isEmptiness_of_leave_mem_tasks hd).exitNodes?_eq

end Drawn

/-- The log of an accepted definition goes with its diagram if it ignores nothing. The arrows,
boxes and colours before the legend are those of the reports about them, in the same order and with
the same ids, titles and names of classes; each action drawn has its exit nodes reported once, when
it is finished, and these are kept. -/
theorem convert_marks {config : Config} {log : Log} {definition : Value} {c : Conversion}
    (hlog : log.ignored = []) (h : (convert config log definition).2 = .ok c) :
    ∃ (actions : Actions) (history : List Moment) (body : List Line) (recorded : List Diagnostic),
      Definition.tree? definition = some actions ∧ HasHistory config actions c history ∧
      c.canvas.lines = body ++ (if config.legend then legendOf config.styles body else []) ∧
      (convert config log definition).1.entries = log.entries ++ recorded ∧
      marks [] body = recorded.filterMap Diagnostic.mark? ∧
      recorded.filterMap Diagnostic.exitNodes? = history.filterMap Moment.finished? ∧
      recorded.filterMap Diagnostic.exitNodes? = c.memo.exits ∧
      c.memo.exits.keys.Nodup ∧
      c.memo.exits.keys.Perm ((drawnIn history).map Declaration.name) := by
  obtain ⟨actions, t, htree, ht⟩ := convert_drawn h
  have hhalt := convert_halt? h
  obtain ⟨history, hr⟩ := ht.walks.recount (chronicle_nil actions)
  have hhistory := ht.hasHistory hhalt hr
  have hsound : c.memo.Sound := ht.memo_eq ▸ ht.walks.later.sound Memo.sound_empty
  refine ⟨actions, history, _, c.reports, htree, hhistory, ht.lines_eq_legend,
    by rw [log_convert h, Log.entries_recordAll hlog], ht.marks_eq hhalt, ?_,
    (ht.exitNodes_eq hhalt).1, hsound.nodup_exits,
    (List.perm_ext_iff_of_nodup hsound.nodup_exits hhistory.drawn_nodup).mpr fun n => ?_⟩
  · rw [(ht.exitNodes_eq hhalt).1, ht.finished_eq hhalt hr]
  · rw [hsound.mem_exits, hhistory.drawn_perm.mem_iff, Memo.mem_keys_visits, ht.memo_eq]
    constructor
    · intro hdone
      rw [Memo.Visited, hdone]
      exact Option.some_ne_none _
    · intro hvisited
      exact ht.walks.done_of_visited hvisited (by simp [Memo.empty, Memo.progress?])

/-- In the sample the switch is finished after what is inside it, and the action after the switch
last of all. -/
theorem convert_marks_sample : ∃ body recorded,
    (convert {} ⟨[], []⟩ (definitionOf sampleEntries)).1.entries = recorded ∧
      marks [] body = recorded.filterMap Diagnostic.mark? ∧
      (Conversion.ofEntries {} sampleEntries).canvas.lines = body ++ legendOf [] body ∧
      (recorded.filterMap Diagnostic.exitNodes?).map Prod.fst
        = ["Log", "Send", "Ask", "Check", "Notify"] := by
  obtain ⟨_, _, body, recorded, -, -, hlines, hentries, hmarks, -, hexits, -⟩ :=
    convert_marks rfl convert_sample.1
  refine ⟨body, recorded, hentries, hmarks, hlines, ?_⟩
  rw [hexits, Conversion.ofEntries, ofEntries_sample.1]
  decide +kernel

end Diagram

end Flowchart
