import Flowchart.Proofs.Decoding
import Flowchart.Proofs.Endpoints
import Flowchart.Proofs.Marks

/-!
# Diagrams that can be read back

Without a style file, the text of a diagram says what its lines are.

* `Drawn.drafted` says that the lines of a diagram are made of names and texts with the styles that
  are found for kinds and classes. Without a style file these are built in, `Drawn.standard`, and
  their shapes have outlines of their own, `Drawn.seen_eq`;
* `Canvas.addEdge_eq_false_iff`: on a canvas with legible arrows, an arrow is left out only if the
  same arrow is there already;
* `convert_decode`: splitting the text of a diagram at its line breaks and reading each part gives
  the lines.
-/

namespace Flowchart.Diagram

/-! ## Styles without a style file -/

theorem styleFor_mem_builtInStyles (kind : String) : styleFor [] kind ∈ Line.builtInStyles := by
  rw [styleFor, Style.known?, List.lookup_nil, Option.none_or]
  cases hlookup : Style.builtIn.lookup kind with
  | none => exact List.mem_cons_self
  | some s => exact List.mem_cons_of_mem _ (List.mem_map_of_mem (Table.mem_of_lookup hlookup))

theorem classStyle_mem_builtInStyles :
    ∀ name ∈ legendClasses, classStyle [] name ∈ Line.builtInStyles := by
  decide

/-- Without a style file every node has a shape with an outline of its own. -/
theorem outline_ne_other (kind name : String) : outline [] kind ≠ .other name := by
  have hshape : ∀ s ∈ Line.builtInStyles, s.shape = .diamond ∨ s.shape = .rectangle := by decide
  rw [outline]
  split
  · simp
  · split
    · simp
    · split
      · simp
      · rcases hshape _ (styleFor_mem_builtInStyles kind) with h | h
        · simp [h]
        · simp [h]

/-! ## Lines of a drawing -/

/-- A line that is made of the names of actions and of any texts, with styles from a given stock. -/
inductive Line.Drafted (stock : Style → Prop) : Line → Prop where
  | node (name text : String) (shape : Shape) : Drafted stock (.ofNode (nodeId name) text shape)
  | edge (source target : String) (text : Option String) :
      Drafted stock (.ofEdge (nodeId source) (nodeId target) text)
  | openSubgraph (title : String) : Drafted stock (.ofTitle title)
  | closeSubgraph : Drafted stock .closeSubgraph
  | classDef {s : Style} (hs : stock s) : Drafted stock (.ofStyle s)
  | inClass (name : String) {s : Style} (hs : stock s) :
      Drafted stock (.inClass (nodeId name) s.className)
  | nodeStyle (name : String) : Drafted stock (.nodeStyle (nodeId name) startStyle)

/-- The styles that a diagram can have: those of kinds, and those of the classes in the legend. -/
def Resolved (styles : StyleTable) (s : Style) : Prop :=
  (∃ kind, s = styleFor styles kind) ∨ ∃ name ∈ legendClasses, s = classStyle styles name

/-- The id of the start node is that of an action with its name. -/
theorem startId_eq : startId = nodeId startId := by decide

section Drawn

variable {config : Config} {actions : Actions} {c : Conversion} {t : Trip}

/-- An arrow that is asked for leads from the start node or an action to an action. -/
theorem Drawn.connect_eq (h : Drawn config actions c t) {source target note : String}
    {text : Option String}
    (hmem : .connect source target text note ∈ startStrokes actions ++ t.strokes) :
    ∃ n k, source = nodeId n ∧ target = nodeId k := by
  rcases List.mem_append.mp hmem with hmem | hmem
  · obtain ⟨name, -, rfl, rfl, -, -⟩ := connect_mem_startStrokes.mp hmem
    exact ⟨startId, name, startId_eq, rfl⟩
  · obtain ⟨⟨n, -, rfl⟩, ⟨k, -, rfl⟩⟩ := h.grounded.arrows _ _ _ _ hmem
    exact ⟨n, k, rfl, rfl⟩

/-- The declaration of a node among the lines is that of the start node or of an action. -/
theorem Drawn.node_eq (h : Drawn config actions c t) {id label : String} {shape : Shape}
    (hmem : Line.node id label shape ∈ c.canvas.lines) :
    ∃ name text, Line.node id label shape = .ofNode (nodeId name) text shape ∧
      (shape = .circle ∨ ∃ kind, shape = outline config.styles kind) := by
  obtain ⟨next, hnext⟩ := mem_nodeLines_of_mem hmem
  rcases List.mem_cons.mp (h.nodeLines_perm.mem_iff.mp hnext) with heq | hdrawn
  · obtain ⟨hline, -⟩ := Prod.mk.inj heq
    rw [Line.ofNode, Line.node.injEq] at hline
    obtain ⟨rfl, rfl, rfl⟩ := hline
    exact ⟨startId, "Start", by rw [← startId_eq, Line.ofNode], Or.inl rfl⟩
  · obtain ⟨d, -, heq⟩ := List.mem_map.mp hdrawn
    obtain ⟨hline, -⟩ := Prod.mk.inj heq
    rw [Declaration.nodeLine, Line.ofNode, Line.node.injEq] at hline
    obtain ⟨rfl, rfl, rfl⟩ := hline
    exact ⟨d.name, caption d.name d.action.kind, rfl, Or.inr ⟨d.action.kind, rfl⟩⟩

/-- The lines of a diagram are made of names and texts, with the styles found for kinds and for the
classes of the legend. -/
theorem Drawn.drafted (h : Drawn config actions c t) :
    ∀ l ∈ c.canvas.lines, l.Drafted (Resolved config.styles) := by
  intro l hl
  have hlines := hl
  rw [h.lines_eq_legend, List.mem_append] at hlines
  rcases hlines with hbody | hlegend
  · obtain ⟨s, hs, hline⟩ := Canvas.mem_linesOfAll hbody
    cases s with
    | line l' =>
      rw [List.mem_singleton.mp hline, h.walks.line_eq l' hs]
      exact .nodeStyle startId
    | node id text shape =>
      obtain rfl := List.mem_singleton.mp hline
      obtain ⟨name, text', heq, -⟩ := h.node_eq hl
      rw [Line.ofNode, heq]
      exact .node name text' shape
    | connect source target text note =>
      obtain ⟨n, k, rfl, rfl⟩ := h.connect_eq hs
      have heq : l = .ofEdge (nodeId n) (nodeId k) text := by
        simpa [Canvas.linesOf, Canvas.blank] using hline
      exact heq ▸ .edge n k text
    | assign id style =>
      obtain ⟨d, -, rfl, rfl⟩ := (assign_mem_drawing h.walks).mp hs
      have hresolved : Resolved config.styles (styleFor config.styles d.action.kind) :=
        Or.inl ⟨_, rfl⟩
      have heq : l = .inClass (nodeId d.name) (styleFor config.styles d.action.kind).className ∨
          l = .ofStyle (styleFor config.styles d.action.kind) := by
        simpa [Canvas.linesOf, Canvas.blank] using hline
      rcases heq with rfl | rfl
      · exact .inClass d.name hresolved
      · exact .classDef hresolved
    | openBox action title => exact List.mem_singleton.mp hline ▸ .openSubgraph title
    | closeBox action title => exact List.mem_singleton.mp hline ▸ .closeSubgraph
    | report r => exact absurd hline List.not_mem_nil
  · split at hlegend
    · obtain ⟨name, hname, rfl⟩ := List.mem_map.mp hlegend
      exact .classDef (Or.inr ⟨name, (List.mem_filter.mp hname).1, rfl⟩)
    · exact absurd hlegend List.not_mem_nil

/-- Without a style file the styles are those that are built in. -/
theorem Drawn.standard (h : Drawn config actions c t) (hstyles : config.styles = []) :
    ∀ l ∈ c.canvas.lines, l.Standard := by
  intro l hl
  have hbuiltIn : ∀ s, Resolved config.styles s → s ∈ Line.builtInStyles := by
    rw [hstyles]
    rintro s (⟨kind, rfl⟩ | ⟨name, hname, rfl⟩)
    · exact styleFor_mem_builtInStyles kind
    · exact classStyle_mem_builtInStyles name hname
  cases h.drafted l hl with
  | node name text shape => exact .node name text shape
  | edge source target text => exact .edge source target text
  | openSubgraph title => exact .openSubgraph title
  | closeSubgraph => exact .closeSubgraph
  | classDef hs => exact .classDef (hbuiltIn _ hs) (hbuiltIn _ hs) (hbuiltIn _ hs)
  | inClass name hs => exact .inClass name (hbuiltIn _ hs)
  | nodeStyle name => exact .nodeStyle name

/-- Its nodes are seen as they are. -/
theorem Drawn.seen_eq (h : Drawn config actions c t) (hstyles : config.styles = []) :
    ∀ l ∈ c.canvas.lines, l.seen = l := by
  intro l hl
  cases l with
  | node id label shape =>
    obtain ⟨-, -, -, rfl | ⟨kind, rfl⟩⟩ := h.node_eq hl
    · rfl
    · rw [hstyles] at hl ⊢
      cases houtline : outline [] kind with
      | other name => exact absurd houtline (outline_ne_other kind name)
      | _ => rfl
  | _ => rfl

end Drawn

/-! ## Arrows that are left out -/

/-- An arrow is left out if the same arrow is there, and not because another one is written alike. -/
theorem Canvas.addEdge_eq_false_iff {c : Canvas} (hc : c.Tidy)
    (hlegible : ∀ l ∈ c.lines, l.isEdge → l.Legible) {source target : String} {text : Option String}
    (h : (Line.ofEdge source target text).Legible) :
    (c.addEdge source target text).2 = false ↔ Line.ofEdge source target text ∈ c.lines := by
  have hdropped : (c.addEdge source target text).2 = false ↔
      (Line.ofEdge source target text).render ∈ edgeTexts c.lines := by
    rw [← hc.edges_eq, addEdge]
    split
    · simp_all
    · simp_all
  rw [hdropped, edgeTexts, List.mem_map]
  constructor
  · rintro ⟨l, hl, hrender⟩
    obtain ⟨hmem, hedge⟩ := List.mem_filter.mp hl
    have hdecode := (hlegible l hmem hedge).decode_render
    rw [hrender, h.decode_render, Option.some.injEq] at hdecode
    cases l with
    | edge source' target' label =>
      have heq : Line.ofEdge source target text = .edge source' target' label := hdecode
      exact heq ▸ hmem
    | _ => cases hedge
  · exact fun hmem => ⟨_, List.mem_filter.mpr ⟨hmem, rfl⟩, rfl⟩

/-- On the way to a diagram an arrow is left out if and only if it has been drawn. -/
theorem Drawn.addEdge_eq_false_iff {config : Config} {actions : Actions} {c : Conversion} {t : Trip}
    (h : Drawn config actions c t) {before : List Stroke} {source target note : String}
    {text : Option String}
    (hbefore : before ++ [Stroke.connect source target text note]
      <+: startStrokes actions ++ t.strokes) :
    ((Canvas.blank.drawAll before).1.addEdge source target text).2 = false ↔
      Line.ofEdge source target text ∈ (Canvas.blank.drawAll before).1.lines := by
  have hmem : ∀ s ∈ before, s ∈ startStrokes actions ++ t.strokes := fun s hs =>
    hbefore.subset (List.mem_append_left _ hs)
  have hline : ∀ l, .line l ∈ before → l.isEdge = false := fun l hl =>
    h.walks.line_isEdge l (hmem _ hl)
  have hlegible : ∀ {source target note : String} {text : Option String},
      .connect source target text note ∈ startStrokes actions ++ t.strokes →
      (Line.ofEdge source target text).Legible := by
    intro source target note text hconnect
    obtain ⟨n, k, rfl, rfl⟩ := h.connect_eq hconnect
    exact (Line.Standard.edge n k text).legible
  refine Canvas.addEdge_eq_false_iff (Canvas.tidy_blank.drawAll hline) (fun l hl hedge => ?_)
    (hlegible (hbefore.subset (List.mem_append_right _ (List.mem_singleton_self _))))
  rw [Canvas.lines_drawAll] at hl
  cases l with
  | edge source' target' label =>
    obtain ⟨text', note', hconnect, heq⟩ :=
      Canvas.connect_of_edge_mem_lines hline ((List.mem_append.mp hl).resolve_left List.not_mem_nil)
    exact heq ▸ hlegible (hmem _ hconnect)
  | _ => cases hedge

/-! ## Diagrams -/

/-- Lines can be read back. Two lines that are made of names and texts with the built-in styles are
written alike only if they state the same. Without a style file all lines of a diagram are such, and
each is one line of its text; an arrow is told by its head, and none is left out but a repeated one.
Splitting the text at its line breaks and reading the parts gives the lines of the diagram. -/
theorem convert_decode :
    (∀ a : Line, a.Standard → Line.decode a.render.toList = some a.seen) ∧
    (∀ a b : Line, a.Standard → b.Standard → a.render = b.render → a.seen = b.seen) ∧
    ∀ (config : Config) (log : Log) (definition : Value) (c : Conversion),
      config.styles = [] → (convert config log definition).2 = .ok c →
      ∃ actions t, Definition.tree? definition = some actions ∧ Drawn config actions c t ∧
        (∀ l ∈ c.canvas.lines, l.Standard ∧
          (∀ ch ∈ l.render.toList, Text.isLineBreak ch = false) ∧
          ("-->".toList <:+: l.render.toList ↔ l.isEdge)) ∧
        (c.canvas.render.toList.splitOn '\n').dropLast.map Line.decode
          = c.canvas.lines.map some ∧
        ∀ before source target text note,
          before ++ [Stroke.connect source target text note] <+: startStrokes actions ++ t.strokes →
          (((Canvas.blank.drawAll before).1.addEdge source target text).2 = false ↔
            Line.ofEdge source target text ∈ (Canvas.blank.drawAll before).1.lines) := by
  refine ⟨fun a ha => ha.legible.decode_render, fun a b ha hb => ha.seen_eq_of_render_eq hb, ?_⟩
  intro config log definition c hstyles h
  obtain ⟨actions, t, htree, ht⟩ := convert_drawn h
  have hstandard := ht.standard hstyles
  refine ⟨actions, t, htree, ht, fun l hl => ?_, ?_, fun _ _ _ _ _ => ht.addEdge_eq_false_iff⟩
  · have hlegible := (hstandard l hl).legible
    exact ⟨hstandard l hl, hlegible.not_isLineBreak, hlegible.head_infix_render_iff⟩
  · rw [Canvas.render, decode_renderLines fun l hl => (hstandard l hl).legible]
    exact List.map_congr_left fun l hl => congrArg some (ht.seen_eq hstyles l hl)

/-- A label may show an arrow, a title that imitates the end of a box is none, and the sample is read
back from its text. -/
theorem convert_decode_sample :
    Line.decode (Line.ofNode (nodeId "end") "a --> b" .diamond).render.toList
        = some (.ofNode (nodeId "end") "a --> b" .diamond) ∧
      (Line.ofTitle "end").render ≠ Line.closeSubgraph.render ∧
      ((Conversion.ofEntries {} sampleEntries).canvas.render.toList.splitOn '\n').dropLast.map
          Line.decode
        = (Conversion.ofEntries {} sampleEntries).canvas.lines.map some := by
  obtain ⟨hread, hsame, hdiagram⟩ := convert_decode
  obtain ⟨actions, t, -, -, -, hdecode, -⟩ := hdiagram {} _ _ _ rfl convert_sample.1
  refine ⟨hread _ (.node "end" "a --> b" .diamond), fun heq => ?_, hdecode⟩
  cases hsame _ _ (.openSubgraph "end") .closeSubgraph heq

end Flowchart.Diagram
