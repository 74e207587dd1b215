import Flowchart.Proofs.Marks

/-!
# Where classes get their colours

The colours of a class are written when the class is first used, and the legend writes those of its
classes that are not used at all.

* `usedClasses` are the classes that lines put nodes into. In lines that are `DefinedOnUse` a class
  gets its colours right after the line that first puts a node into it, and nowhere else;
* `Canvas.OnUse.drawAll`: drawing keeps the lines so, with any styles, since the classes that a
  canvas has defined are those that its lines use;
* `convert_definitions`: the lines of a diagram are such lines and then the legend, and all of them
  together define each class that is used once.
-/

namespace Flowchart.Diagram

/-- The class that a line puts a node into. -/
def Line.usedClass? : Line → Option String
  | inClass _ className => some className
  | _ => none

/-- The classes that lines put nodes into, in order. -/
def usedClasses (ls : List Line) : List String := ls.filterMap Line.usedClass?

/-- The classes of the legend that lines do not use, in the order of the legend. -/
def unusedClasses (ls : List Line) : List String :=
  legendClasses.filter fun name => name ∉ usedClasses ls

theorem usedClasses_append (ls ls' : List Line) :
    usedClasses (ls ++ ls') = usedClasses ls ++ usedClasses ls' :=
  List.filterMap_append

/-! ## Lines that define a class when it is first used -/

/-- Lines in which the colours of a class follow the first node in it, and are given nowhere
else. -/
structure DefinedOnUse (ls : List Line) : Prop where
  first : ∀ before id name after, ls = before ++ .inClass id name :: after →
    name ∉ usedClasses before → ∃ fill stroke rest, after = .classDef name fill stroke :: rest
  only : ∀ before name fill stroke after, ls = before ++ .classDef name fill stroke :: after →
    ∃ earlier id, before = earlier ++ [.inClass id name] ∧ name ∉ usedClasses earlier

/-- A line of two lists stands in the first, or the first comes before it. -/
theorem split_append {ls new before after : List Line} {l : Line}
    (h : ls ++ new = before ++ l :: after) :
    (∃ rest, ls = before ++ l :: rest ∧ after = rest ++ new) ∨
      ∃ front, before = ls ++ front ∧ new = front ++ l :: after := by
  rcases List.append_eq_append_iff.mp h with ⟨front, hbefore, hnew⟩ | ⟨rest, hls, hafter⟩
  · exact Or.inr ⟨front, hbefore, hnew⟩
  · cases rest with
    | nil => exact Or.inr ⟨[], by rw [hls]; simp, by simpa using hafter.symm⟩
    | cons l' rest =>
      rw [List.cons_append, List.cons.injEq] at hafter
      obtain ⟨rfl, rfl⟩ := hafter
      exact Or.inl ⟨rest, hls, rfl⟩

namespace DefinedOnUse

variable {ls new : List Line}

theorem nil : DefinedOnUse [] :=
  ⟨fun before _ _ _ h => by simp at h, fun before _ _ _ _ h => by simp at h⟩

/-- What the new lines have to see to when lines are added. -/
theorem append (h : DefinedOnUse ls)
    (first : ∀ front id name after, new = front ++ .inClass id name :: after →
      name ∉ usedClasses (ls ++ front) →
        ∃ fill stroke rest, after = .classDef name fill stroke :: rest)
    (only : ∀ front name fill stroke after, new = front ++ .classDef name fill stroke :: after →
      ∃ earlier id, ls ++ front = earlier ++ [.inClass id name] ∧ name ∉ usedClasses earlier) :
    DefinedOnUse (ls ++ new) := by
  constructor
  · intro before id name after heq hnew
    rcases split_append heq with ⟨rest, hls, rfl⟩ | ⟨front, rfl, hfront⟩
    · obtain ⟨fill, stroke, rest, rfl⟩ := h.first before id name _ hls hnew
      exact ⟨fill, stroke, rest ++ new, rfl⟩
    · exact first front id name after hfront hnew
  · intro before name fill stroke after heq
    rcases split_append heq with ⟨rest, hls, rfl⟩ | ⟨front, rfl, hfront⟩
    · exact h.only before name fill stroke _ hls
    · exact only front name fill stroke after hfront

/-- A line that does not give colours may be added, unless it uses a class for the first time. -/
theorem concat (h : DefinedOnUse ls) {l : Line} (hclass : l.class? = none)
    (hused : ∀ name, l.usedClass? = some name → name ∈ usedClasses ls) :
    DefinedOnUse (ls ++ [l]) := by
  refine h.append ?_ ?_
  · intro front id name after heq hnew
    cases front with
    | nil =>
      rw [List.nil_append, List.cons.injEq] at heq
      rw [List.append_nil] at hnew
      exact absurd (hused name (heq.1 ▸ rfl)) hnew
    | cons l' front => simp at heq
  · intro front name fill stroke after heq
    cases front with
    | nil =>
      rw [List.nil_append, List.cons.injEq] at heq
      rw [heq.1] at hclass
      cases hclass
    | cons l' front => simp at heq

/-- The first node of a class may be added together with the colours of the class. -/
theorem concat_first (h : DefinedOnUse ls) (id : String) {name : String}
    (hnew : name ∉ usedClasses ls) (fill stroke : String) :
    DefinedOnUse (ls ++ [.inClass id name, .classDef name fill stroke]) := by
  refine h.append ?_ ?_
  · intro front id' name' after heq _
    cases front with
    | nil =>
      rw [List.nil_append, List.cons.injEq, Line.inClass.injEq] at heq
      obtain ⟨⟨-, rfl⟩, rfl⟩ := heq
      exact ⟨fill, stroke, [], rfl⟩
    | cons l front => simp [List.singleton_eq_append_iff] at heq
  · intro front name' fill' stroke' after heq
    cases front with
    | nil => simp at heq
    | cons l front =>
      cases front with
      | nil =>
        simp only [List.cons_append, List.nil_append, List.cons.injEq, Line.classDef.injEq] at heq
        obtain ⟨rfl, ⟨rfl, -, -⟩, -⟩ := heq
        exact ⟨ls, id, rfl, hnew⟩
      | cons l' front => simp at heq

end DefinedOnUse

/-! ## Drawing -/

/-- A canvas that defines the classes which its lines use, each where it is first used. -/
structure Canvas.OnUse (c : Canvas) : Prop where
  mem_classes : ∀ name, name ∈ c.classes ↔ name ∈ usedClasses c.lines
  lines : DefinedOnUse c.lines

/-- A line that is about no class. -/
def Line.IsClassless (l : Line) : Prop := l.class? = none ∧ l.usedClass? = none

namespace Canvas

variable {c : Canvas} {s : Stroke} {ss : List Stroke}

/-- A stroke draws the use of the class that it puts a node into. -/
theorem mem_usedClasses_linesOf (h : ∀ l, s = .line l → l.IsClassless) {name : String} :
    name ∈ usedClasses (c.linesOf s) ↔ s.class? = some name := by
  cases s with
  | line l =>
    have hnone : usedClasses [l] = [] := List.filterMap_cons_none (h l rfl).2
    simp [linesOf, hnone, Stroke.class?]
  | connect source target text note =>
    rw [linesOf]
    split
    · simp [usedClasses, Stroke.class?]
    · simp [usedClasses, Stroke.class?, Line.ofEdge, Line.usedClass?]
  | assign id style =>
    have hdefinition : usedClasses
        (if c.classes.contains style.className then [] else [Line.ofStyle style]) = [] := by
      split
      · rfl
      · rfl
    have huse : ∀ ls, usedClasses (.inClass id style.className :: ls)
        = style.className :: usedClasses ls := fun _ => rfl
    rw [linesOf, huse, hdefinition, List.mem_singleton, Stroke.class?, Option.some.injEq, eq_comm]
  | _ => simp [linesOf, usedClasses, Stroke.class?, Line.ofNode, Line.ofTitle, Line.usedClass?]

theorem onUse_blank : blank.OnUse := ⟨fun _ => Iff.rfl, .nil⟩

/-- Drawing defines classes where they are first used. -/
theorem OnUse.draw (hc : c.OnUse) (h : ∀ l, s = .line l → l.IsClassless) :
    (c.draw s).1.OnUse := by
  constructor
  · intro name
    rw [mem_classes_draw, lines_draw, usedClasses_append, List.mem_append, hc.mem_classes,
      mem_usedClasses_linesOf h]
  · rw [lines_draw]
    have hother : ∀ l : Line, l.IsClassless → DefinedOnUse (c.lines ++ [l]) := fun l hl =>
      hc.lines.concat hl.1 fun name hname => by rw [hl.2] at hname; cases hname
    cases s with
    | line l => exact hother l (h l rfl)
    | connect source target text note =>
      rw [linesOf]
      split
      · rw [List.append_nil]
        exact hc.lines
      · exact hother _ ⟨rfl, rfl⟩
    | assign id style =>
      rw [linesOf]
      split
      · rename_i hmem
        refine hc.lines.concat rfl fun name hname => ?_
        rw [Line.usedClass?, Option.some.injEq] at hname
        exact hname ▸ (hc.mem_classes _).mp (List.contains_iff_mem.mp hmem)
      · rename_i hmem
        refine hc.lines.concat_first id (fun hused => hmem ?_) style.fill style.stroke
        exact List.contains_iff_mem.mpr ((hc.mem_classes _).mpr hused)
    | report d =>
      rw [linesOf, List.append_nil]
      exact hc.lines
    | _ => exact hother _ ⟨rfl, rfl⟩

theorem OnUse.drawAll (hc : c.OnUse) (h : ∀ l, .line l ∈ ss → l.IsClassless) :
    (c.drawAll ss).1.OnUse :=
  drawAll_induction hc fun _ _ hs hc => hc.draw fun l hl => h l (hl ▸ hs)

end Canvas

/-! ## Diagrams -/

section Drawn

variable {config : Config} {actions : Actions} {c : Conversion} {t : Trip}

/-- What is drawn before the legend defines its classes where they are first used. -/
theorem Drawn.onUse (h : Drawn config actions c t) : (t.canvas actions).OnUse :=
  Canvas.onUse_blank.drawAll fun l hl => h.walks.line_eq l hl ▸ ⟨rfl, rfl⟩

/-- The classes that are missing from a drawing are those that it does not use. -/
theorem Drawn.legendOf_eq (h : Drawn config actions c t) :
    legendOf config.styles (t.canvas actions).lines
      = (unusedClasses (t.canvas actions).lines).map fun name =>
          Line.ofStyle (classStyle config.styles name) := by
  have hclasses := (Trip.listed h.walks).classes_eq
  rw [legendOf, unusedClasses, ← hclasses]
  simp only [h.onUse.mem_classes]

/-- A class that the lines of a diagram use is one that the diagram lists. -/
theorem Drawn.mem_classes_of_used (h : Drawn config actions c t) {name : String}
    (hname : name ∈ usedClasses c.canvas.lines) : name ∈ c.canvas.classes := by
  obtain ⟨used, hlines⟩ := h.lines_eq
  have hlegend : usedClasses (used.map Line.ofStyle) = [] :=
    List.filterMap_eq_nil_iff.mpr fun l hl => by
      obtain ⟨style, -, rfl⟩ := List.mem_map.mp hl
      rfl
  have hdrawn : (t.canvas actions).lines
      = Canvas.blank.linesOfAll (startStrokes actions ++ t.strokes) :=
    Canvas.lines_drawAll Canvas.blank _
  rw [hlines, usedClasses_append, hlegend, List.append_nil, ← hdrawn,
    ← h.onUse.mem_classes] at hname
  rw [h.canvas_eq]
  split
  · exact (((Trip.listed h.walks).addLegend config.styles).2.1 name).mpr (Or.inl hname)
  · exact hname

end Drawn

/-- The lines of an accepted definition, whatever its styles: first those of the drawing, in which
the colours of a class follow the first node in it, and then, if there is to be a legend, the
colours of the classes of the legend that have not been used, in the order of the legend. So each
class that has a node in it is defined once, and no class twice. -/
theorem convert_definitions {config : Config} {log : Log} {definition : Value} {c : Conversion}
    (h : (convert config log definition).2 = .ok c) :
    ∃ body : List Line,
      c.canvas.lines = body ++ (if config.legend then
          (unusedClasses body).map fun name => .classDef name
            (classStyle config.styles name).fill (classStyle config.styles name).stroke
        else []) ∧
      DefinedOnUse body ∧
      (∀ name ∈ usedClasses c.canvas.lines, ∃ fill stroke,
        c.canvas.definitions name = [.classDef name fill stroke]) ∧
      (c.canvas.lines.filterMap Line.class?).Nodup := by
  obtain ⟨actions, t, -, ht⟩ := convert_drawn h
  have hbody : (t.canvas actions).lines
      = Canvas.blank.linesOfAll (startStrokes actions ++ t.strokes) :=
    Canvas.lines_drawAll Canvas.blank _
  have hstyle : ∀ name, Line.ofStyle (classStyle config.styles name) = .classDef name
      (classStyle config.styles name).fill (classStyle config.styles name).stroke := fun name => by
    rw [Line.ofStyle, StyleTable.className_classStyle]
  refine ⟨(t.canvas actions).lines, ?_, ht.onUse.lines, fun name hname => ?_,
    ht.listed.classes_eq ▸ ht.listed.nodup⟩
  · simp only [← hstyle, ← ht.legendOf_eq]
    rw [hbody]
    exact ht.lines_eq_legend
  · have hlength := ht.listed.length_definitions (ht.mem_classes_of_used hname)
    obtain ⟨l, hl⟩ := List.length_eq_one_iff.mp hlength
    have hmem : l ∈ c.canvas.definitions name := hl ▸ List.mem_cons_self
    have hclass : l.class? = some name := beq_iff_eq.mp (List.mem_filter.mp hmem).2
    cases l with
    | classDef className fill stroke =>
      rw [Line.class?, Option.some.injEq] at hclass
      exact ⟨fill, stroke, hclass ▸ hl⟩
    | _ => cases hclass

/-- Two kinds of actions share a class of the legend. It gets the colours of the kind that comes
first, right there, and the legend leaves it out. -/
theorem convert_definitions_shared :
    let styles : StyleTable := [("Compose", ⟨"#111111", "#222222", .rectangle, "If"⟩),
      ("Http", ⟨"#333333", "#444444", .rounded, "If"⟩)]
    ∃ c body, (convert { styles } ⟨[], []⟩ (definitionOf (pairActions "Compose" "Http").entries)).2
        = .ok c ∧
      c.canvas.lines = body ++ ((unusedClasses body).map fun name => .classDef name
        (classStyle styles name).fill (classStyle styles name).stroke) ∧
      DefinedOnUse body ∧ c.canvas.definitions "If" = [.classDef "If" "#111111" "#222222"] := by
  intro styles
  have hcompose : "Compose" ∉ boxKinds := by decide
  have hhttp : "Http" ∉ boxKinds := by decide
  have haccepted := convert_pair { styles } ⟨[], []⟩ hcompose hhttp
  obtain ⟨body, hlines, hbody, hdefinitions, -⟩ := convert_definitions haccepted
  refine ⟨_, body, haccepted, hlines, hbody, ?_⟩
  obtain ⟨fill, stroke, hdefinition⟩ := hdefinitions "If" (by decide +kernel)
  let c := Conversion.ofActions { styles } (pairActions "Compose" "Http")
  have hmem : Line.classDef "If" "#111111" "#222222" ∈ c.canvas.definitions "If" := by
    decide +kernel
  rw [hdefinition, List.mem_singleton] at hmem
  rw [hdefinition, hmem]

end Flowchart.Diagram
