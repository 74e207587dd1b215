import Flowchart.Proofs.History
import Flowchart.Proofs.Palette

/-!
# The classes of a diagram

Which colours a diagram gives to the classes of its nodes.

* `Canvas.definitions` are the lines that give a class its colours. On a `Canvas.Listed` canvas each
  class that is listed has one, and drawing keeps it so;
* `Walks.assign_mem_iff`: a trip puts the node of each declaration it has drawn into the class of
  its kind, so `Drawn.definition_cases` knows where a definition comes from;
* `convert_classes`: the colours of each class are those of all actions in it, in every diagram, if
  and only if the kinds that share a class have the same colours. A style file may change one of
  them alone: `convert_classes_appending`.
-/

namespace Flowchart.Diagram

/-! ## The classes on a canvas -/

/-- The class that a line gives colours to. -/
def Line.class? : Line → Option String
  | classDef className _ _ => some className
  | _ => none

/-- The class that a stroke puts a node into. -/
def Stroke.class? : Stroke → Option String
  | assign _ style => some style.className
  | _ => none

namespace Canvas

/-- The lines that give a class its colours. -/
def definitions (c : Canvas) (className : String) : List Line :=
  c.lines.filter fun l => l.class? == some className

/-- A canvas that lists the classes it defines, each of which it defines once. -/
structure Listed (c : Canvas) : Prop where
  classes_eq : c.classes = c.lines.filterMap Line.class?
  nodup : c.classes.Nodup

theorem listed_blank : blank.Listed := ⟨rfl, List.nodup_nil⟩

/-- A class that is listed is given its colours once. -/
theorem Listed.length_definitions {c : Canvas} (hc : c.Listed) {className : String}
    (hmem : className ∈ c.classes) : (c.definitions className).length = 1 := by
  rw [definitions, ← List.countP_eq_length_filter, ← List.count_filterMap, ← hc.classes_eq]
  exact List.count_eq_one_of_mem hc.nodup hmem

/-- If only one line can give colours to a class that is listed, it does so once. -/
theorem Listed.definitions_eq {c : Canvas} (hc : c.Listed) {className : String}
    (hmem : className ∈ c.classes) {line : Line}
    (hline : ∀ l ∈ c.lines, l.class? = some className → l = line) :
    c.definitions className = [line] := by
  obtain ⟨l, hl⟩ := List.length_eq_one_iff.mp (hc.length_definitions hmem)
  have hmem : l ∈ c.definitions className := hl ▸ List.mem_cons_self
  obtain ⟨hmem, hclass⟩ := List.mem_filter.mp hmem
  rw [hl, hline l hmem (beq_iff_eq.mp hclass)]

theorem Listed.addLine {c : Canvas} (hc : c.Listed) {l : Line} (hl : l.class? = none) :
    (c.addLine l).Listed := by
  refine ⟨?_, hc.nodup⟩
  rw [Canvas.addLine, List.filterMap_append, ← hc.classes_eq, List.filterMap_cons, hl]
  exact (List.append_nil _).symm

@[simp] theorem classes_addLine (c : Canvas) (l : Line) : (c.addLine l).classes = c.classes := rfl

theorem mem_classes_defineClass {c : Canvas} {style : Style} {name : String} :
    name ∈ (c.defineClass style).1.classes ↔ name ∈ c.classes ∨ name = style.className := by
  rw [defineClass]
  split
  · rename_i hmem
    refine ⟨Or.inl, ?_⟩
    rintro (hname | rfl)
    · exact hname
    · exact List.contains_iff_mem.mp hmem
  · simp

theorem mem_lines_defineClass {c : Canvas} {style : Style} {l : Line}
    (h : l ∈ (c.defineClass style).1.lines) : l ∈ c.lines ∨ l = Line.ofStyle style := by
  rw [defineClass] at h
  split at h
  · exact Or.inl h
  · simpa [Canvas.addLine] using h

/-- The colours of a class are added where they are missing. -/
theorem Listed.defineClass {c : Canvas} (hc : c.Listed) (style : Style) :
    (c.defineClass style).1.Listed := by
  rw [Canvas.defineClass]
  split
  · exact hc
  · rename_i hmem
    rw [List.contains_iff_mem] at hmem
    refine ⟨?_, List.nodup_append.mpr ⟨hc.nodup, List.nodup_singleton _, ?_⟩⟩
    · simp [Canvas.addLine, hc.classes_eq, Line.ofStyle, Line.class?]
    · rintro x hx y hy rfl
      exact hmem (List.mem_singleton.mp hy ▸ hx)

/-- Drawing keeps a canvas listed. -/
theorem Listed.draw {c : Canvas} (hc : c.Listed) {s : Stroke}
    (h : ∀ l, s = .line l → l.class? = none) : (c.draw s).1.Listed := by
  cases s with
  | line l => exact hc.addLine (h l rfl)
  | connect source target text note =>
    show (c.addEdge source target text).1.Listed
    rw [addEdge]
    split
    · exact hc
    · have hline := hc.addLine (l := Line.ofEdge source target text) rfl
      exact ⟨hline.classes_eq, hline.nodup⟩
  | assign id style => exact (hc.addLine rfl).defineClass style
  | report d => exact hc
  | _ => exact hc.addLine rfl

theorem Listed.drawAll {c : Canvas} (hc : c.Listed) {ss : List Stroke}
    (h : ∀ l, .line l ∈ ss → l.class? = none) : (c.drawAll ss).1.Listed :=
  drawAll_induction hc fun _ _ hs hc => hc.draw fun l hl => h l (hl ▸ hs)

/-- A class that a node is put into is listed. -/
theorem mem_classes_draw {c : Canvas} {s : Stroke} {name : String} :
    name ∈ (c.draw s).1.classes ↔ name ∈ c.classes ∨ s.class? = some name := by
  cases s with
  | connect source target text note =>
    have hsame : (c.addEdge source target text).1.classes = c.classes := by
      rw [addEdge]
      split
      · rfl
      · rfl
    simp [Canvas.draw, apply, hsame, Stroke.class?]
  | assign id style =>
    rw [Canvas.draw, apply, Stroke.class?, Option.some.injEq, eq_comm (b := name)]
    exact mem_classes_defineClass
  | _ => simp [Canvas.draw, apply, Stroke.class?]

theorem mem_classes_drawAll {c : Canvas} {ss : List Stroke} {name : String} :
    name ∈ (c.drawAll ss).1.classes ↔ name ∈ c.classes ∨ ∃ s ∈ ss, s.class? = some name := by
  induction ss generalizing c with
  | nil => simp [drawAll]
  | cons s rest ih =>
    have hrest : name ∈ (c.drawAll (s :: rest)).1.classes ↔ _ := ih (c := (c.draw s).1)
    rw [hrest, mem_classes_draw, or_assoc, List.exists_mem_cons_iff]

/-- The legend defines its classes where they are missing, and nothing else. -/
theorem Listed.addLegend {c : Canvas} (hc : c.Listed) (styles : StyleTable) :
    (c.addLegend styles).Listed ∧
      (∀ name, name ∈ (c.addLegend styles).classes ↔ name ∈ c.classes ∨ name ∈ legendClasses) ∧
      ∀ l ∈ (c.addLegend styles).lines,
        l ∈ c.lines ∨ ∃ name ∈ legendClasses, l = Line.ofStyle (classStyle styles name) := by
  have hfold : ∀ (names : List String) (c : Canvas), c.Listed →
      let legend := names.foldl (fun c name => (c.defineClass (classStyle styles name)).1) c
      legend.Listed ∧ (∀ name, name ∈ legend.classes ↔ name ∈ c.classes ∨ name ∈ names) ∧
        ∀ l ∈ legend.lines,
          l ∈ c.lines ∨ ∃ name ∈ names, l = Line.ofStyle (classStyle styles name) := by
    intro names
    induction names with
    | nil => exact fun c hc => ⟨hc, fun name => by simp, fun l hl => Or.inl hl⟩
    | cons first rest ih =>
      intro c hc
      obtain ⟨hlisted, hclasses, hlines⟩ := ih _ (hc.defineClass (classStyle styles first))
      refine ⟨hlisted, fun name => ?_, fun l hl => ?_⟩
      · rw [List.foldl_cons, hclasses, mem_classes_defineClass, StyleTable.className_classStyle,
          or_assoc, List.mem_cons]
      · rcases hlines l hl with hl | ⟨name, hname, heq⟩
        · rcases mem_lines_defineClass hl with hl | heq
          · exact Or.inl hl
          · exact Or.inr ⟨first, List.mem_cons_self, heq⟩
        · exact Or.inr ⟨name, List.mem_cons_of_mem _ hname, heq⟩
  exact hfold legendClasses c hc

end Canvas

/-! ## The classes of a trip -/

variable {actions : Actions} {styles : StyleTable} {ts : List Task} {m : Memo} {t : Trip}

/-- A trip puts the nodes of the declarations it draws into the classes of their kinds. -/
theorem Walks.assign_mem_iff (h : Walks actions styles ts m t) {id : String} {style : Style} :
    .assign id style ∈ t.strokes ↔
      ∃ d ∈ t.drawn, id = nodeId d.name ∧ style = styleFor styles d.action.kind := by
  have harrows : ∀ (m : Memo) (name dependency : String),
      .assign id style ∉ m.arrows name dependency := by
    simp [Memo.arrows]
  induction h with
  | nil m => simp
  | wire _ ih | leave _ ih | again _ _ _ ih | unknown _ _ ih => simpa using ih
  | @fresh d ts m before inside t _ _ _ _ _ ih₁ ih₂ ih₃ =>
    have hopening : .assign id style ∈ d.action.opening styles d.name ↔
        id = nodeId d.name ∧ style = styleFor styles d.action.kind := by
      simp [Action.opening, Action.nodeStroke]
    have hclosing : .assign id style ∉ d.action.closing d.name := by simp [Action.closing]
    simp only [Trip.strokes_prepend, Trip.drawn_prepend, List.cons_append, List.append_assoc,
      List.mem_append, List.mem_cons, List.not_mem_nil, hopening, hclosing, ih₁, ih₂, ih₃,
      reduceCtorEq, false_or, or_and_right, exists_or, exists_eq_left]
    -- the action is drawn after what it runs after, and stands before it in the list
    exact or_left_comm
  | @met name dependency d state ts m t _ _ _ ih =>
    have hreports : .assign id style ∉ state.reports name dependency := by
      cases state with
      | underway => simp [Progress.reports]
      | done => simp [Progress.reports]
    simpa [harrows, hreports] using ih
  | force _ _ _ _ ih₁ ih₂ =>
    simp only [Trip.strokes_prepend, Trip.drawn_prepend, List.mem_append, harrows, or_false, ih₁,
      ih₂, or_and_right, exists_or]

theorem assign_mem_drawing (h : Walks actions styles ts m t) {id : String} {style : Style} :
    .assign id style ∈ startStrokes actions ++ t.strokes ↔
      ∃ d ∈ t.drawn, id = nodeId d.name ∧ style = styleFor styles d.action.kind := by
  have hstart : .assign id style ∉ startStrokes actions := by simp [startStrokes]
  rw [List.mem_append, h.assign_mem_iff]
  exact or_iff_right hstart

/-- The lines that a drawing writes as they are define no class. -/
theorem Walks.line_class? (h : Walks actions styles ts m t) (l : Line)
    (hl : .line l ∈ startStrokes actions ++ t.strokes) : l.class? = none :=
  h.line_eq l hl ▸ rfl

/-! ## The classes of a diagram -/

section Drawn

variable {config : Config} {c : Conversion}

theorem Trip.listed (h : Walks actions styles ts m t) : (t.canvas actions).Listed :=
  Canvas.listed_blank.drawAll h.line_class?

theorem Drawn.listed (h : Drawn config actions c t) : c.canvas.Listed := by
  have hlisted := Trip.listed h.walks
  rw [h.canvas_eq]
  split
  · exact (hlisted.addLegend config.styles).1
  · exact hlisted

/-- The classes that a diagram lists are those of the kinds drawn, and those of the legend. -/
theorem Drawn.mem_classes_iff (h : Drawn config actions c t) {name : String} :
    name ∈ c.canvas.classes ↔
      (∃ d ∈ t.drawn, (styleFor config.styles d.action.kind).className = name) ∨
        (config.legend ∧ name ∈ legendClasses) := by
  have hdrawn : name ∈ (t.canvas actions).classes ↔
      ∃ d ∈ t.drawn, (styleFor config.styles d.action.kind).className = name := by
    rw [Trip.canvas, Canvas.mem_classes_drawAll]
    constructor
    · rintro (hblank | ⟨s, hs, hclass⟩)
      · exact absurd hblank List.not_mem_nil
      · cases s with
        | assign id style =>
          obtain ⟨d, hd, -, rfl⟩ := (assign_mem_drawing h.walks).mp hs
          exact ⟨d, hd, Option.some.inj hclass⟩
        | _ => cases hclass
    · rintro ⟨d, hd, rfl⟩
      exact Or.inr ⟨_, (assign_mem_drawing h.walks).mpr ⟨d, hd, rfl, rfl⟩, rfl⟩
  rw [h.canvas_eq]
  split
  · rename_i hlegend
    rw [((Trip.listed h.walks).addLegend config.styles).2.1, hdrawn]
    simp [hlegend]
  · rename_i hlegend
    simp [hdrawn, hlegend]

/-- A line that defines a class has the colours of a kind that was drawn, or of the legend. -/
theorem Drawn.definition_cases (h : Drawn config actions c t) {l : Line} (hl : l ∈ c.canvas.lines)
    {name : String} (hclass : l.class? = some name) :
    (∃ d ∈ t.drawn, l = Line.ofStyle (styleFor config.styles d.action.kind)) ∨
      ∃ name' ∈ legendClasses, l = Line.ofStyle (classStyle config.styles name') := by
  have hdrawn : l ∈ (t.canvas actions).lines →
      ∃ d ∈ t.drawn, l = Line.ofStyle (styleFor config.styles d.action.kind) := by
    intro hl
    rw [Trip.canvas, Canvas.lines_drawAll] at hl
    obtain ⟨s, hs, hl⟩ :=
      Canvas.mem_linesOfAll ((List.mem_append.mp hl).resolve_left List.not_mem_nil)
    cases s with
    | line l' =>
      rw [List.mem_singleton.mp hl, h.walks.line_class? l' hs] at hclass
      cases hclass
    | assign id style =>
      obtain ⟨d, hd, -, rfl⟩ := (assign_mem_drawing h.walks).mp hs
      rcases List.mem_cons.mp hl with rfl | hl
      · cases hclass
      · exact ⟨d, hd, List.mem_singleton.mp hl⟩
    | report d => exact absurd hl List.not_mem_nil
    | _ =>
      rw [List.mem_singleton.mp hl] at hclass
      cases hclass
  rw [h.canvas_eq] at hl
  split at hl
  · exact (((Trip.listed h.walks).addLegend config.styles).2.2 l hl).imp_left hdrawn
  · exact Or.inl (hdrawn hl)

/-- If kinds in one class have the same colours, a class that is listed has those of any kind in
it. -/
theorem Drawn.definitions_eq (h : Drawn config actions c t)
    (hconservative : config.styles.Conservative) (hcoherent : config.styles.Coherent)
    {kind : String} (hmem : (styleFor config.styles kind).className ∈ c.canvas.classes) :
    c.canvas.definitions (styleFor config.styles kind).className
      = [Line.ofStyle (styleFor config.styles kind)] := by
  refine h.listed.definitions_eq hmem fun l hl hclass => ?_
  obtain ⟨kind', rfl⟩ : ∃ kind', l = Line.ofStyle (styleFor config.styles kind') := by
    rcases h.definition_cases hl hclass with ⟨d, -, rfl⟩ | ⟨name, hname, rfl⟩
    · exact ⟨d.action.kind, rfl⟩
    · have hbuiltIn : ∀ name ∈ legendClasses, ∃ e ∈ Style.builtIn, e.2.className = name := by
        decide
      obtain ⟨kind', hkind'⟩ := hconservative.exists_classStyle_eq (hbuiltIn name hname)
      exact ⟨kind', by rw [hkind']⟩
  have hclass := Option.some.inj hclass
  obtain ⟨hfill, hstroke⟩ := hcoherent kind' kind hclass
  rw [Line.ofStyle, Line.ofStyle, hfill, hstroke, hclass]

end Drawn

/-- In a diagram with this history each class is defined once, with the colours of the kind of every
action in it. The classes of the legend have the colours that the styles alone give them. -/
structure Coloured (config : Config) (c : Conversion) (history : List Moment) : Prop where
  drawn : ∀ d, .draw d ∈ history →
    c.canvas.definitions (styleFor config.styles d.action.kind).className
      = [Line.ofStyle (styleFor config.styles d.action.kind)]
  legend : config.legend → ∀ name ∈ legendClasses,
    c.canvas.definitions name = [Line.ofStyle (classStyle config.styles name)]

theorem Drawn.coloured {config : Config} {c : Conversion} (h : Drawn config actions c t)
    (hconservative : config.styles.Conservative) (hcoherent : config.styles.Coherent)
    {history : List Moment} (hr : Recount actions config.styles (rootTasks actions) t [] history) :
    Coloured config c history := by
  constructor
  · intro d hd
    exact h.definitions_eq hconservative hcoherent
      (h.mem_classes_iff.mpr (Or.inl ⟨d, hr.draw_mem_iff.mp hd, rfl⟩))
  · intro hlegend name hname
    have hbuiltIn : ∃ e ∈ Style.builtIn, e.2.className = name := by
      revert name
      decide
    obtain ⟨kind, hkind⟩ := hconservative.exists_classStyle_eq hbuiltIn
    have hclass := StyleTable.className_classStyle config.styles name
    rw [hkind] at hclass ⊢
    subst hclass
    exact h.definitions_eq hconservative hcoherent
      (h.mem_classes_iff.mpr (Or.inr ⟨hlegend, hname⟩))

/-! ## Two kinds in one class -/

/-- A tree of two plain actions, one after the other in the list. -/
def pairActions (kind kind' : String) : Actions :=
  [("A", .simple kind [] []), ("B", .simple kind' [] [])]

theorem distinct_pair (kind kind' : String) : (pairActions kind kind').Distinct := by
  show ["A", "B"].Nodup
  decide

theorem readable_pair {kind kind' : String} (h : kind ∉ boxKinds) (h' : kind' ∉ boxKinds) :
    (pairActions kind kind').Readable := by
  refine Actions.readable_iff.mpr ⟨(distinct_pair kind kind').wellFormed, fun d hd => ?_⟩
  rcases List.mem_pair.mp hd with rfl | rfl
  · exact h
  · exact h'

theorem Canvas.halt?_eq_none {c : Canvas} {ss : List Stroke} (h : ∀ s ∈ ss, s.halts = []) :
    Event.halt? (c.drawAll ss).2 = none := by
  rw [halt?_drawAll, List.findSome?_eq_none_iff]
  intro s hs
  rw [← s.halt?_halts, h s hs]
  rfl

/-- The label of a plain action can be read if its name can. -/
theorem halts_opening {styles : StyleTable} {kind name : String}
    (h : labelLimit? (displayName name) = none) :
    ∀ s ∈ (Action.simple kind [] []).opening styles name, s.halts = [] := by
  have hnode : ((Action.simple kind [] []).nodeStroke styles name).halts = [] := by
    have hstart : labelLimit? "Start" = none := by decide
    simp only [Action.nodeStroke, Action.appearance]
    split
    · simp [Stroke.halts, Stroke.label?, hstart]
    · simp [Stroke.halts, Stroke.label?, h]
  intro s hs
  simp only [Action.opening, Action.boxTitle?, Action.caption?, Option.map_none, Option.toList_none,
    List.nil_append, Action.reports, List.map_nil, List.append_nil, List.mem_cons,
    List.not_mem_nil, or_false] at hs
  rcases hs with rfl | rfl
  · exact hnode
  · rfl

/-- Whatever the kinds of the two actions are, there is a diagram. -/
theorem convert_pair (config : Config) (log : Log) {kind kind' : String} (h : kind ∉ boxKinds)
    (h' : kind' ∉ boxKinds) :
    (convert config log (definitionOf (pairActions kind kind').entries)).2
      = .ok (Conversion.ofActions config (pairActions kind kind')) := by
  refine (readable_pair h h').convert_definitionOf log ?_
  have hwalk : ((Plan.ofActions (pairActions kind kind') config.styles).walkAll
        (pairActions kind kind') ⟨none, .none, none, ""⟩ .empty).strokes
      = (Action.simple kind [] []).opening config.styles "A"
          ++ [Stroke.report (.exitNodes "A" [nodeId "A"])]
        ++ ((Action.simple kind' [] []).opening config.styles "B"
          ++ [Stroke.report (.exitNodes "B" [nodeId "B"])]) := rfl
  have hindex : (Index.ofActions (pairActions kind kind')).2 = [] := rfl
  rw [Conversion.halt?, events_ofActions, hwalk, hindex, List.map_nil, List.nil_append]
  refine Canvas.halt?_eq_none fun s hs => ?_
  rcases List.mem_append.mp hs with hs | hs
  · -- the label of the start node, and arrows without a text
    have hstart : startStrokes (pairActions kind kind')
        = [.node startId "Start" .circle, .line (.nodeStyle startId startStyle),
          .connect startId (nodeId "A") none "", .connect startId (nodeId "B") none ""] := rfl
    rw [hstart] at hs
    simp only [List.mem_cons, List.not_mem_nil, or_false] at hs
    rcases hs with rfl | rfl | rfl | rfl
    · decide
    · rfl
    · rfl
    · rfl
  · have hnames : labelLimit? (displayName "A") = none ∧ labelLimit? (displayName "B") = none := by
      decide
    simp only [List.mem_append, List.mem_singleton] at hs
    rcases hs with (hs | rfl) | hs | rfl
    · exact halts_opening hnames.1 s hs
    · rfl
    · exact halts_opening hnames.2 s hs
    · rfl

/-- If the diagram of the two actions has one definition for each class, the actions in one class
have the same colours. -/
theorem sameColours_of_pair {styles : StyleTable} {kind kind' : String} (h : kind ∉ boxKinds)
    (h' : kind' ∉ boxKinds)
    (hclass : (styleFor styles kind).className = (styleFor styles kind').className)
    (hall : ∀ (config : Config) (log : Log) (definition : Value) (c : Conversion),
      config.styles = styles → (convert config log definition).2 = .ok c →
        ∃ actions history, Definition.tree? definition = some actions ∧
          HasHistory config actions c history ∧ Coloured config c history) :
    (styleFor styles kind).SameColours (styleFor styles kind') := by
  obtain ⟨c, haccepted⟩ : ∃ c,
      (convert { styles } ⟨[], []⟩ (definitionOf (pairActions kind kind').entries)).2 = .ok c :=
    ⟨_, convert_pair { styles } ⟨[], []⟩ h h'⟩
  obtain ⟨actions, history, htree, hhistory, hcoloured⟩ := hall _ _ _ _ rfl haccepted
  obtain ⟨t, ht⟩ := convert_drawn_of_tree haccepted htree
  rw [(readable_pair h h').tree?_definitionOf, Option.some.injEq] at htree
  subst htree
  have hdist := distinct_pair kind kind'
  have hdefined : ∀ name k, (name, Action.simple k [] []) ∈ pairActions kind kind' →
        c.canvas.definitions (styleFor styles k).className
          = [Line.ofStyle (styleFor styles k)] := by
    intro name k hmem
    have hd := root_mem_declarations (Actions.mem_children.mpr ⟨_, _, hmem, rfl⟩)
    refine hcoloured.drawn _ (hhistory.draw_mem hdist hd ?_)
    rw [Memo.Visited, ht.done hdist _ hd]
    exact Option.some_ne_none _
  have hsame := (hdefined "A" kind (.head _)).symm.trans
    (hclass ▸ hdefined "B" kind' (.tail _ (.head _)))
  rw [Line.ofStyle, Line.ofStyle, List.singleton_inj, Line.classDef.injEq] at hsame
  exact hsame.2

/-! ## Diagrams -/

/-- A style file that names no classes is given. The colours of each class are those of all actions
in it, in every diagram of an accepted definition, and those of the legend do not depend on the
definition: this holds if the two kinds that deal with variables have the same colours and so have
the kinds that are not known, and only then. -/
theorem convert_classes {raw : List (Value × Value)} {styles : StyleTable}
    (hraw : StyleTable.NamesNoClasses raw) (hmerge : StyleTable.merge [] raw = .ok styles) :
    styles.Uniform ↔ ∀ (config : Config) (log : Log) (definition : Value) (c : Conversion),
      config.styles = styles → (convert config log definition).2 = .ok c →
        ∃ actions history, Definition.tree? definition = some actions ∧
          HasHistory config actions c history ∧ Coloured config c history := by
  have hconservative := StyleTable.conservative_nil.merge hraw hmerge
  constructor
  · rintro huniform config log definition c rfl h
    obtain ⟨actions, t, htree, ht⟩ := convert_drawn h
    obtain ⟨history, hr⟩ := ht.walks.recount (chronicle_nil actions)
    exact ⟨actions, history, htree, ht.hasHistory (convert_halt? h) hr,
      ht.coloured hconservative (hconservative.coherent huniform) hr⟩
  · exact fun hall => hconservative.uniform fun kind h kind' h' hclass =>
      sameColours_of_pair h h' hclass hall

/-- A style file that changes the colour of one kind. -/
def fillEntry (kind fill : String) : List (Value × Value) :=
  [(.str kind, .map [(.str "fill", .str fill)])]

theorem namesNoClasses_fillEntry (kind fill : String) :
    StyleTable.NamesNoClasses (fillEntry kind fill) := by
  have hkey : StyleField.ofKey? (.str "fill") ≠ some .className := by decide
  intro e he fields hfields f hf
  rw [List.mem_singleton.mp he, Value.map.injEq] at hfields
  subst hfields
  rw [List.mem_singleton.mp hf]
  exact hkey

/-- A kind in a class of its own may be given any colour. -/
theorem convert_classes_compose :
    let styles : StyleTable := [("Compose", ⟨"#EEEEEE", "#000000", .rectangle, "Compose"⟩)]
    StyleTable.merge [] (fillEntry "Compose" "#EEEEEE") = .ok styles ∧
      ∃ c history,
        (convert { styles } ⟨[], []⟩ (definitionOf (pairActions "Compose" "Http").entries)).2
          = .ok c ∧
        HasHistory { styles } (pairActions "Compose" "Http") c history ∧
        Coloured { styles } c history := by
  intro styles
  have hmerge : StyleTable.merge [] (fillEntry "Compose" "#EEEEEE") = .ok styles := rfl
  have huniform : styles.Uniform := ⟨⟨by decide, by decide⟩, by decide, by decide⟩
  have hcompose : "Compose" ∉ boxKinds := by decide
  have hhttp : "Http" ∉ boxKinds := by decide
  have haccepted := convert_pair { styles } ⟨[], []⟩ hcompose hhttp
  obtain ⟨actions, history, htree, hhistory, hcoloured⟩ :=
    (convert_classes (namesNoClasses_fillEntry _ _) hmerge).mp huniform _ _ _ _ rfl haccepted
  rw [(readable_pair hcompose hhttp).tree?_definitionOf, Option.some.injEq] at htree
  subst htree
  exact ⟨hmerge, _, history, haccepted, hhistory, hcoloured⟩

/-- If only appending to a variable is given a colour, the class of both kinds has this colour in
the legend of one diagram, and the other colour in that of a diagram with an action that sets a
variable. -/
theorem convert_classes_appending :
    let styles : StyleTable :=
      [("AppendToStringVariable", ⟨"#111111", "#FFEB3B", .rectangle, "SetVariable"⟩)]
    StyleTable.merge [] (fillEntry "AppendToStringVariable" "#111111") = .ok styles ∧
      ∃ c c', (convert { styles } ⟨[], []⟩ (definitionOf [])).2 = .ok c ∧
        (convert { styles } ⟨[], []⟩ (definitionOf (pairActions "SetVariable" "Http").entries)).2
          = .ok c' ∧
        c.canvas.definitions "SetVariable" = [.classDef "SetVariable" "#111111" "#FFEB3B"] ∧
        c'.canvas.definitions "SetVariable" = [.classDef "SetVariable" "#FFF9C4" "#FFEB3B"] := by
  intro styles
  refine ⟨rfl, _, _, Actions.readable_nil.convert_definitionOf _ ?_,
    convert_pair _ _ (by decide) (by decide), ?_, ?_⟩
  · decide +kernel
  · decide +kernel
  · decide +kernel

end Flowchart.Diagram
