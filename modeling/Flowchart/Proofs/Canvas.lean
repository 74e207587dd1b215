import Mathlib.Data.List.Nodup
import Mathlib.Tactic.Common
import Flowchart.Conversion

/-!
# What a drawing leaves on the canvas

The lines of a canvas, read back from the strokes that were drawn.

* `Canvas.linesOfAll` is what strokes add to a canvas, and `lines_drawAll` that they add nothing
  else;
* `edgeTexts` reads the arrows back from lines. On a `Canvas.Tidy` canvas they are the texts it
  remembers, and drawing keeps it so: `mem_edges_drawAll` says which arrows there are;
* `nodeLines` reads the nodes back, each with the line after it, and `addLegend_eq` says that the
  legend adds neither.
-/

namespace Flowchart.Diagram

/-! ## Lines read back -/

/-- An arrow. -/
def Line.isEdge : Line → Bool
  | edge _ _ _ => true
  | _ => false

/-- The texts of the arrows among lines. -/
def edgeTexts (ls : List Line) : List String := (ls.filter Line.isEdge).map Line.render

/-- The declarations of nodes among lines, each with the line after it. -/
def nodeLines : List Line → List (Line × Option Line)
  | [] => []
  | .node id label shape :: rest => (.node id label shape, rest.head?) :: nodeLines rest
  | _ :: rest => nodeLines rest

theorem mem_of_mem_nodeLines {ls : List Line} {p : Line × Option Line} (h : p ∈ nodeLines ls) :
    p.1 ∈ ls := by
  induction ls with
  | nil => exact absurd h List.not_mem_nil
  | cons l rest ih =>
    rw [nodeLines.eq_def] at h
    split at h
    · exact absurd h List.not_mem_nil
    · rename_i heq
      cases heq
      rcases List.mem_cons.mp h with rfl | h
      · exact List.mem_cons_self
      · exact List.mem_cons_of_mem _ (ih h)
    · rename_i heq
      cases heq
      exact List.mem_cons_of_mem _ (ih h)

theorem mem_nodeLines_of_mem {ls : List Line} {id label : String} {shape : Shape}
    (h : Line.node id label shape ∈ ls) :
    ∃ next, (Line.node id label shape, next) ∈ nodeLines ls := by
  induction ls with
  | nil => exact absurd h List.not_mem_nil
  | cons l rest ih =>
    rcases List.mem_cons.mp h with rfl | h
    · exact ⟨rest.head?, List.mem_cons_self⟩
    · obtain ⟨next, hnext⟩ := ih h
      cases l with
      | node id' label' shape' => exact ⟨next, List.mem_cons_of_mem _ hnext⟩
      | _ => exact ⟨next, hnext⟩

/-- Lines that declare no nodes may stand before others. -/
theorem nodeLines_append_of_none {ls : List Line}
    (h : ∀ id label shape, Line.node id label shape ∉ ls) (rest : List Line) :
    nodeLines (ls ++ rest) = nodeLines rest := by
  induction ls with
  | nil => rfl
  | cons l ls ih =>
    have hrest := ih fun id label shape hmem => h id label shape (List.mem_cons_of_mem _ hmem)
    cases l with
    | node id label shape => exact absurd List.mem_cons_self (h id label shape)
    | _ => exact hrest

namespace Canvas

/-! ## The lines that strokes add -/

/-- The lines that a stroke adds to a canvas. -/
def linesOf (c : Canvas) : Stroke → List Line
  | .line l => [l]
  | .node id text shape => [.ofNode id text shape]
  | .connect source target text _ =>
    if c.edges.contains (Line.ofEdge source target text).render then []
    else [.ofEdge source target text]
  | .assign id style =>
    .inClass id style.className
      :: if c.classes.contains style.className then [] else [.ofStyle style]
  | .openBox _ title => [.ofTitle title]
  | .closeBox _ _ => [.closeSubgraph]
  | .report _ => []

/-- The lines that strokes add to a canvas one after another. -/
def linesOfAll (c : Canvas) : List Stroke → List Line
  | [] => []
  | s :: rest => c.linesOf s ++ (c.draw s).1.linesOfAll rest

theorem lines_draw (c : Canvas) (s : Stroke) : (c.draw s).1.lines = c.lines ++ c.linesOf s := by
  cases s with
  | line l => rfl
  | node id text shape => rfl
  | connect source target text note =>
    simp only [draw, apply, addEdge, linesOf]
    split
    · rw [List.append_nil]
    · rfl
  | assign id style =>
    cases h : c.classes.contains style.className
    · simp_all [draw, apply, defineClass, linesOf, addLine]
    · simp_all [draw, apply, defineClass, linesOf, addLine]
  | openBox action title => rfl
  | closeBox action title => rfl
  | report d => simp [draw, apply, linesOf]

theorem lines_drawAll (c : Canvas) (ss : List Stroke) :
    (c.drawAll ss).1.lines = c.lines ++ c.linesOfAll ss := by
  induction ss generalizing c with
  | nil => simp [drawAll, linesOfAll]
  | cons s rest ih =>
    rw [linesOfAll, ← List.append_assoc, ← lines_draw]
    exact ih (c.draw s).1

theorem linesOfAll_append (c : Canvas) (ss ts : List Stroke) :
    c.linesOfAll (ss ++ ts) = c.linesOfAll ss ++ (c.drawAll ss).1.linesOfAll ts := by
  induction ss generalizing c with
  | nil => rfl
  | cons s rest ih =>
    rw [List.cons_append, linesOfAll, ih, linesOfAll, List.append_assoc]
    rfl

/-- A stroke adds the most to a blank canvas. -/
theorem linesOf_subset (c : Canvas) (s : Stroke) : c.linesOf s ⊆ blank.linesOf s := by
  cases s with
  | connect source target text note =>
    simp only [linesOf]
    split
    · exact List.nil_subset _
    · exact List.Subset.refl _
  | assign id style =>
    simp only [linesOf]
    split
    · exact List.cons_subset_cons _ (List.nil_subset _)
    · exact List.Subset.refl _
  | _ => exact List.Subset.refl _

/-- What every stroke keeps is kept by a drawing. -/
theorem drawAll_induction {P : Canvas → Prop} {c : Canvas} {ss : List Stroke} (hc : P c)
    (step : ∀ c, ∀ s ∈ ss, P c → P (c.draw s).1) : P (c.drawAll ss).1 := by
  induction ss generalizing c with
  | nil => exact hc
  | cons s rest ih =>
    exact ih (step c s List.mem_cons_self hc) fun c s hs => step c s (List.mem_cons_of_mem _ hs)

/-- Every line was added by one of the strokes. -/
theorem mem_linesOfAll {c : Canvas} {ss : List Stroke} {l : Line} (h : l ∈ c.linesOfAll ss) :
    ∃ s ∈ ss, l ∈ blank.linesOf s := by
  induction ss generalizing c with
  | nil => exact absurd h List.not_mem_nil
  | cons s rest ih =>
    rcases List.mem_append.mp h with h | h
    · exact ⟨s, List.mem_cons_self, linesOf_subset c s h⟩
    · obtain ⟨s', hs', hl⟩ := ih h
      exact ⟨s', List.mem_cons_of_mem _ hs', hl⟩

/-- An arrow among the lines was asked for by a stroke, which says the text on it. -/
theorem connect_of_edge_mem_lines {c : Canvas} {ss : List Stroke}
    (hlines : ∀ l, .line l ∈ ss → l.isEdge = false) {source target : String} {label : Option String}
    (h : Line.edge source target label ∈ c.linesOfAll ss) :
    ∃ text note, .connect source target text note ∈ ss ∧
      Line.edge source target label = .ofEdge source target text := by
  obtain ⟨s, hs, hl⟩ := mem_linesOfAll h
  cases s with
  | line l =>
    have heq : Line.edge source target label = l := by simpa [linesOf] using hl
    exact absurd (heq ▸ hlines l hs) (by simp [Line.isEdge])
  | connect source' target' text note =>
    have heq : Line.edge source target label = .ofEdge source' target' text := by
      simpa [linesOf, blank] using hl
    rw [Line.ofEdge, Line.edge.injEq] at heq
    obtain ⟨rfl, rfl, rfl⟩ := heq
    exact ⟨text, note, hs, rfl⟩
  | _ => simp [linesOf, blank, Line.ofNode, Line.ofStyle, Line.ofTitle] at hl

end Canvas

/-! ## Arrows -/

/-- The text of the arrow that a stroke asks for. -/
def Stroke.arrow? : Stroke → Option String
  | .connect source target text _ => some (Line.ofEdge source target text).render
  | _ => none

theorem Stroke.arrow?_eq_some_iff {s : Stroke} {e : String} :
    s.arrow? = some e ↔ ∃ source target text note, s = .connect source target text note ∧
      (Line.ofEdge source target text).render = e := by
  cases s with
  | connect source target text note => simp [arrow?]
  | _ => simp [arrow?]

theorem edgeTexts_append (ls ls' : List Line) :
    edgeTexts (ls ++ ls') = edgeTexts ls ++ edgeTexts ls' := by
  simp [edgeTexts]

namespace Canvas

/-- A canvas that remembers the texts of its arrows, each of which it has once. -/
structure Tidy (c : Canvas) : Prop where
  edges_eq : c.edges = edgeTexts c.lines
  nodup : c.edges.Nodup

theorem tidy_blank : blank.Tidy := ⟨rfl, List.nodup_nil⟩

/-- The arrow of a stroke is remembered unless it was there. -/
theorem edges_draw (c : Canvas) (s : Stroke) :
    (c.draw s).1.edges = c.edges ++ s.arrow?.toList.filter fun e => e ∉ c.edges := by
  cases s with
  | connect source target text note =>
    cases h : c.edges.contains (Line.ofEdge source target text).render
    · simp_all [draw, apply, addEdge, Stroke.arrow?]
    · simp_all [draw, apply, addEdge, Stroke.arrow?]
  | assign id style =>
    cases h : c.classes.contains style.className
    · simp_all [draw, apply, defineClass, addLine, Stroke.arrow?]
    · simp_all [draw, apply, defineClass, addLine, Stroke.arrow?]
  | _ => simp [draw, apply, addLine, Stroke.arrow?]

/-- The arrow that is remembered is the one that is drawn. -/
theorem edgeTexts_linesOf (c : Canvas) {s : Stroke} (h : ∀ l, s = .line l → l.isEdge = false) :
    edgeTexts (c.linesOf s) = s.arrow?.toList.filter fun e => e ∉ c.edges := by
  cases s with
  | connect source target text note =>
    have hone : edgeTexts [Line.ofEdge source target text]
        = [(Line.ofEdge source target text).render] := rfl
    cases hc : c.edges.contains (Line.ofEdge source target text).render
    · simp_all [linesOf, Stroke.arrow?]
    · simp_all [linesOf, Stroke.arrow?, edgeTexts]
  | line l =>
    have hl := h l rfl
    simp [linesOf, edgeTexts, hl, Stroke.arrow?]
  | assign id style =>
    rw [linesOf]
    split
    · rfl
    · rfl
  | _ => rfl

/-- What is remembered once stays so if something new is remembered. -/
theorem nodup_append_new {xs : List String} (h : xs.Nodup) (new : Option String) :
    (xs ++ new.toList.filter fun x => x ∉ xs).Nodup := by
  refine List.nodup_append.mpr ⟨h, ?_, ?_⟩
  · cases new with
    | none => simp
    | some x => exact (List.nodup_singleton x).filter _
  · rintro x hx x' hx' rfl
    simp only [List.mem_filter, decide_eq_true_eq] at hx'
    exact hx'.2 hx

theorem Tidy.draw {c : Canvas} (hc : c.Tidy) {s : Stroke}
    (h : ∀ l, s = .line l → l.isEdge = false) : (c.draw s).1.Tidy := by
  constructor
  · rw [edges_draw, lines_draw, edgeTexts_append, edgeTexts_linesOf c h, ← hc.edges_eq]
  · rw [edges_draw]
    exact nodup_append_new hc.nodup s.arrow?

theorem Tidy.drawAll {c : Canvas} (hc : c.Tidy) {ss : List Stroke}
    (h : ∀ l, .line l ∈ ss → l.isEdge = false) : (c.drawAll ss).1.Tidy :=
  drawAll_induction hc fun _ _ hs hc => hc.draw fun l hl => h l (hl ▸ hs)

/-- The arrows after a stroke are those before it and the one that it asks for. -/
theorem mem_edges_draw {c : Canvas} {s : Stroke} {e : String} :
    e ∈ (c.draw s).1.edges ↔ e ∈ c.edges ∨ s.arrow? = some e := by
  rw [edges_draw]
  by_cases he : e ∈ c.edges
  · simp [he]
  · simp [he]

theorem mem_edges_drawAll {c : Canvas} {ss : List Stroke} {e : String} :
    e ∈ (c.drawAll ss).1.edges ↔ e ∈ c.edges ∨ ∃ s ∈ ss, s.arrow? = some e := by
  induction ss generalizing c with
  | nil => simp [drawAll]
  | cons s rest ih =>
    -- an arrow that was left out is remembered already
    have hrest : e ∈ (c.drawAll (s :: rest)).1.edges ↔ _ := ih (c := (c.draw s).1)
    rw [hrest, mem_edges_draw, or_assoc, List.exists_mem_cons_iff]

/-! ## The legend -/

/-- The legend adds the colours of classes and nothing else. -/
theorem addLegend_eq (styles : StyleTable) (c : Canvas) :
    ∃ used : List Style, (c.addLegend styles).lines = c.lines ++ used.map Line.ofStyle ∧
      (c.addLegend styles).edges = c.edges := by
  have hfold : ∀ (names : List String) (c : Canvas), ∃ used : List Style,
      (names.foldl (fun c name => (c.defineClass (classStyle styles name)).1) c).lines
        = c.lines ++ used.map Line.ofStyle ∧
      (names.foldl (fun c name => (c.defineClass (classStyle styles name)).1) c).edges
        = c.edges := by
    intro names
    induction names with
    | nil => exact fun c => ⟨[], by simp, rfl⟩
    | cons name rest ih =>
      intro c
      obtain ⟨used, hlines, hedges⟩ := ih (c.defineClass (classStyle styles name)).1
      rw [List.foldl_cons, hlines, hedges, defineClass]
      split
      · exact ⟨used, rfl, rfl⟩
      · exact ⟨classStyle styles name :: used, by simp [addLine], rfl⟩
  exact hfold legendClasses c

theorem Tidy.addLegend {c : Canvas} (hc : c.Tidy) (styles : StyleTable) :
    (c.addLegend styles).Tidy := by
  obtain ⟨used, hlines, hedges⟩ := addLegend_eq styles c
  have hnone : edgeTexts (used.map Line.ofStyle) = [] := by
    rw [edgeTexts, List.filter_eq_nil_iff.mpr, List.map_nil]
    intro l hl
    obtain ⟨style, -, rfl⟩ := List.mem_map.mp hl
    exact Bool.false_ne_true
  constructor
  · rw [hedges, hlines, edgeTexts_append, hnone, List.append_nil, hc.edges_eq]
  · rw [hedges]
    exact hc.nodup

end Canvas

end Flowchart.Diagram
