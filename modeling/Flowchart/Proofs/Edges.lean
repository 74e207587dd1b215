import Flowchart.Proofs.Nodes
import Flowchart.Proofs.Reordering

/-!
# The arrows of a diagram

In an orderly tree the walk draws the arrows of the tree and no others, whichever action it comes
to first: an arrow from a dependency is drawn when the dependency is finished, so the memory has the
exit nodes that the tree gives.

* `Walks.connects_iff`: a trip draws the arrows that its tasks ask for and those of the actions it
  draws;
* `Drawn.connects_iff`: a diagram has the arrows of its tree;
* `convert_edges` says so of the texts of the lines, each of which occurs once.
-/

namespace Flowchart.Diagram

/-- Some of the strokes draw this arrow. -/
def Connects (source target : String) (text : Option String) (ss : List Stroke) : Prop :=
  ∃ note, .connect source target text note ∈ ss

variable {actions : Actions} {styles : StyleTable} {ts : List Task} {m : Memo} {t : Trip}
variable {source target : String} {text : Option String}

theorem connects_append {ss ss' : List Stroke} :
    Connects source target text (ss ++ ss') ↔
      Connects source target text ss ∨ Connects source target text ss' := by
  simp only [Connects, List.mem_append, exists_or]

theorem connects_drawing {d : Declaration} {before inside : List Stroke} {r : Diagnostic} :
    Connects source target text
        (before ++ (d.action.opening styles d.name ++ inside ++ d.action.closing d.name)
          ++ [.report r]) ↔
      Connects source target text before ∨ Connects source target text inside := by
  simp only [Connects, connect_mem_drawing, exists_or]

variable (actions source target text) in
/-- Some of the declared actions ask for this arrow. -/
def AskedBy (ds : List Declaration) : Prop :=
  ∃ d ∈ ds, Asked actions source target text d.dependencyTasks ∨
    Asked actions source target text d.tasks

theorem askedBy_cons {d : Declaration} {ds : List Declaration} :
    AskedBy actions source target text (d :: ds) ↔
      (Asked actions source target text d.dependencyTasks ∨
        Asked actions source target text d.tasks) ∨ AskedBy actions source target text ds :=
  List.exists_mem_cons_iff _ _ _

theorem askedBy_append {ds ds' : List Declaration} :
    AskedBy actions source target text (ds ++ ds') ↔
      AskedBy actions source target text ds ∨ AskedBy actions source target text ds' := by
  simp only [AskedBy, List.mem_append, or_and_right, exists_or]

/-- The arrows from a finished dependency are those that the tree asks for. -/
theorem connects_arrows (ho : actions.Orderly) {m : Memo} (hm : m.Knows actions) {d : Declaration}
    (hd : d ∈ actions.declarations) (hdone : m.progress? d.name = some .done) (name : String) :
    Connects source target text (m.arrows name d.name) ↔
      (Task.depend name d.name).Asks actions source target text := by
  simp only [Connects, connect_mem_arrows, hm.exitsOf ho.ending hd hdone, Task.Asks]
  constructor
  · rintro ⟨note, hsource, htarget, htext, -⟩
    exact ⟨d, hd, rfl, hsource, htarget, htext⟩
  · rintro ⟨e, he, hname, hsource, htarget, htext⟩
    rw [ho.distinct.eq_of_name he hd hname] at hsource
    exact ⟨"", hsource, htarget, htext, rfl⟩

/-- A trip through what is ahead draws the arrows that its tasks ask for, and those that are asked
for by the actions it draws. -/
theorem Walks.connects_iff (ho : actions.Orderly) (h : Walks actions styles ts m t)
    (hm : m.Knows actions) (hts : Ahead actions m ts) :
    Connects source target text t.strokes ↔
      Asked actions source target text ts ∨ AskedBy actions source target text t.drawn := by
  induction h with
  | nil m => simp [Connects, Asked, AskedBy]
  | @wire s n x note ts m t _ ih =>
    have hwire : Connects source target text [.connect s (nodeId n) x note] ↔
        (Task.wire s n x note).Asks actions source target text := by
      simp [Connects, Task.Asks]
    rw [Trip.strokes_prepend, connects_append, hwire, ih hm hts.tail, asked_cons, or_assoc]
    rfl
  | @leave id r ts m t _ ih =>
    have hleave : ¬ Connects source target text [.report r] := by simp [Connects]
    rw [Trip.strokes_prepend, connects_append, ih hm hts.tail, asked_cons]
    simp only [hleave, Task.Asks, false_or, Trip.drawn_prepend, List.nil_append]
  | again _ _ _ ih =>
    rw [Trip.strokes_prepend, List.nil_append, ih hm hts.tail, asked_cons]
    simp only [Task.Asks, false_or, Trip.drawn_prepend, List.nil_append]
  | @fresh d ts m before inside t declared new dependencies groups rest ih₁ ih₂ ih₃ =>
    -- the memory is right after each part of the drawing, so each part draws what it should
    have hbefore := ih₁ (hm.start d.name) (hts.dependencies declared)
    have hknows := (dependencies.exits_eq ho (hm.start d.name) (hts.dependencies declared)).2
    have hgroups := ih₂ hknows (hts.groups declared dependencies)
    obtain ⟨hexits, hinside⟩ := groups.exits_eq ho hknows (hts.groups declared dependencies)
    rw [exitsFrom_eq ho declared hexits] at ih₃ ⊢
    have hrest := ih₃ (hinside.finish ho.distinct declared) (hts.rest new dependencies groups _)
    rw [Trip.strokes_prepend, connects_append, connects_drawing, hbefore, hgroups, hrest,
      Trip.drawn_prepend, askedBy_append, askedBy_cons, askedBy_append, asked_cons]
    simp only [Task.Asks, false_or]
    grind
  | @unknown name dependency ts m t absent _ ih =>
    have hnone : ¬ (Task.depend name dependency).Asks actions source target text := by
      rintro ⟨e, he, rfl, -⟩
      have hknown := Index.lookup_isSome he
      rw [absent] at hknown
      exact Bool.false_ne_true hknown
    have hreport :
        ¬ Connects source target text [.report (.dependencyNotFound name dependency)] := by
      simp [Connects]
    rw [Trip.strokes_prepend, connects_append, ih hm hts.tail, asked_cons]
    simp only [hreport, hnone, false_or, Trip.drawn_prepend, List.nil_append]
  | @met name dependency d state ts m t known seen _ ih =>
    obtain ⟨hd, rfl⟩ := Index.mem_declarations known
    have hvisited : m.Visited d.name := by
      rw [Memo.Visited, seen]
      exact Option.some_ne_none _
    -- a dependency that has been visited is finished, so its arrows start where they should
    have hdone := hvisited.done (hts.not_underway ho.acyclic List.mem_cons_self hd rfl)
    have hreports : ¬ Connects source target text (state.reports name d.name) := by
      rintro ⟨note, hmem⟩
      exact connect_not_mem_reports hmem
    rw [Trip.strokes_prepend, connects_append, connects_append, connects_arrows ho hm hd hdone,
      ih hm hts.tail, asked_cons, or_assoc, or_assoc]
    simp only [hreports, false_or, Trip.drawn_prepend, List.nil_append]
  | @force name dependency d ts m first t known new drawn rest ih₁ ih₂ =>
    obtain ⟨hd, rfl⟩ := Index.mem_declarations known
    have hnone : ¬ Asked actions source target text [.visit d] := by simp [Asked, Task.Asks]
    have hfirst := ih₁ hm hts.forced
    simp only [hnone, false_or] at hfirst
    have hknows := (drawn.exits_eq ho hm hts.forced).2
    have hvisited : first.memo.Visited d.name := drawn.visited_of_mem_tasks List.mem_cons_self
    have hdone : first.memo.progress? d.name = some .done :=
      drawn.done_of_visited hvisited (by rw [new]; exact (Option.some_ne_none _).symm)
    have hrest := ih₂ hknows (hts.tail.congr drawn.underway_iff)
    rw [Trip.strokes_prepend, connects_append, connects_append, hfirst,
      connects_arrows ho hknows hd hdone, hrest, Trip.drawn_prepend, askedBy_append, asked_cons]
    grind

/-! ## Diagrams -/

/-- A diagram has the arrows of its tree. -/
theorem Drawn.connects_iff {config : Config} {c : Conversion} (h : Drawn config actions c t)
    (ho : actions.Orderly) :
    Connects source target text (startStrokes actions ++ t.strokes) ↔
      actions.Arrow source target text := by
  have hroot : ¬ Asked actions source target text (rootTasks actions) := by
    rintro ⟨task, htask, hasks⟩
    obtain ⟨d, rfl⟩ := rootTasks_visit htask
    exact hasks
  have hdrawn : AskedBy actions source target text t.drawn ↔
      AskedBy actions source target text actions.declarations := by
    simp only [AskedBy, (h.drawn_perm ho.distinct).mem_iff]
  rw [connects_append, h.walks.connects_iff ho knows_empty (ahead_empty _), hdrawn, arrow_iff_asked]
  simp only [hroot, false_or]
  simp only [Connects, connect_mem_startStrokes, AskedBy]
  refine or_congr_left ?_
  constructor
  · rintro ⟨note, name, hname, hsource, htarget, htext, -⟩
    exact ⟨name, hname, hsource, htarget, htext⟩
  · rintro ⟨name, hname, hsource, htarget, htext⟩
    exact ⟨"", name, hname, hsource, htarget, htext, rfl⟩

theorem exists_arrow_iff {ss : List Stroke} {e : String} :
    (∃ s ∈ ss, s.arrow? = some e) ↔
      ∃ source target text, Connects source target text ss ∧
        e = (Line.ofEdge source target text).render := by
  simp only [Stroke.arrow?_eq_some_iff, Connects]
  constructor
  · rintro ⟨_, hmem, source, target, text, note, rfl, rfl⟩
    exact ⟨source, target, text, ⟨note, hmem⟩, rfl⟩
  · rintro ⟨source, target, text, ⟨note, hmem⟩, rfl⟩
    exact ⟨_, hmem, source, target, text, note, rfl, rfl⟩

/-- The texts of the arrows of a diagram are those of the arrows of its tree. -/
theorem convert_mem_edgeTexts {config : Config} {log : Log} {definition : Value} {c : Conversion}
    {actions : Actions} (h : (convert config log definition).2 = .ok c)
    (htree : Definition.tree? definition = some actions) (ho : actions.Orderly) {e : String} :
    e ∈ edgeTexts c.canvas.lines ↔
      ∃ source target text, actions.Arrow source target text ∧
        e = (Line.ofEdge source target text).render := by
  obtain ⟨t, ht⟩ := convert_drawn_of_tree h htree
  rw [ht.mem_edgeTexts, exists_arrow_iff]
  simp only [ht.connects_iff ho]

/-- If the tree of an accepted definition is orderly, the arrows of the diagram are those of the
tree, and each of their lines occurs once. A definition whose tree is the same but for the order of
its actions has the same arrows. -/
theorem convert_edges {config : Config} {log : Log} {definition : Value} {c : Conversion}
    {actions : Actions} (h : (convert config log definition).2 = .ok c)
    (htree : Definition.tree? definition = some actions) (ho : actions.Orderly) :
    (∀ e, e ∈ edgeTexts c.canvas.lines ↔
      ∃ source target text, actions.Arrow source target text ∧
        e = (Line.ofEdge source target text).render) ∧
      (edgeTexts c.canvas.lines).Nodup ∧
      ∀ config' log' definition' c' actions', (convert config' log' definition').2 = .ok c' →
        Definition.tree? definition' = some actions' → actions'.Orderly →
        actions.Reordered actions' →
        ∀ e, e ∈ edgeTexts c.canvas.lines ↔ e ∈ edgeTexts c'.canvas.lines := by
  refine ⟨fun e => convert_mem_edgeTexts h htree ho, ?_, ?_⟩
  · obtain ⟨t, ht⟩ := convert_drawn_of_tree h htree
    exact ht.tidy.edges_eq ▸ ht.tidy.nodup
  · intro config' log' definition' c' actions' h' htree' ho' hsame e
    rw [convert_mem_edgeTexts h htree ho, convert_mem_edgeTexts h' htree' ho']
    simp only [hsame.arrow_iff]

/-- The last action of the sample is reached from all ends of the switch that it runs after, and so
it is when the sample is turned around. -/
theorem convert_edges_sample :
    "Ask --> Notify" ∈ edgeTexts (Conversion.ofEntries {} sampleEntries).canvas.lines ∧
      "Ask --> Notify" ∈
        edgeTexts (Conversion.ofEntries {} sampleEntries.reverse).canvas.lines := by
  have hnotify : sampleActions.declarations[0] ∈ sampleActions.declarations := List.getElem_mem _
  have hcheck : sampleActions.declarations[1] ∈ sampleActions.declarations := List.getElem_mem _
  have harrow : sampleActions.Arrow "Ask" (nodeId sampleActions.declarations[0].name) none :=
    .after hnotify hcheck (by decide) (by decide +kernel)
  have horderly : Actions.Orderly sampleActions.reverse := by
    refine ⟨?_, Actions.acyclic_of_rank sampleRank (by decide), ?_⟩
    · rw [Actions.Distinct]
      decide
    · rw [Actions.Ending]
      decide
  have hreadable : sampleActions.Readable := by
    have h := readable_ofEntries sampleEntries
    rwa [ofEntries_sample.1] at h
  obtain ⟨htexts, -, hreordered⟩ :=
    convert_edges convert_sample.1 tree?_sample.1 orderly_sample
  have hfirst := (htexts "Ask --> Notify").mpr ⟨_, _, _, harrow, by decide +kernel⟩
  refine ⟨hfirst, ?_⟩
  have hsame := hreordered _ _ _ _ _ convert_sample.2 tree?_sample.2 horderly
    (hreadable.reordered_of_perm (List.reverse_perm _).symm)
  exact (hsame _).mp hfirst

end Flowchart.Diagram
