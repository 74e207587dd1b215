import Flowchart.Proofs.Arrows
import Flowchart.Proofs.History

/-!
# Names that are declared again

The index holds the last declaration of a name, but a walk draws the first one it comes to. What a
diagram shows for a name is the declaration that was drawn, as a whole; it is the one in the index
if all declarations of the name declare the same action.

* `Walks.carriedOut`: each task that is asked for on a trip is carried out on a part of it;
* `Shows` says that a diagram shows an action under a name: its dependencies, its arrows and what
  is inside it are those of the action;
* `convert_redeclared`: whatever is drawn is shown so, and in a tree of `Consistent` names the
  nodes of the diagram are those of the index. `convert_redeclared_box` is a tree in which an action
  is declared again as another one, and is not drawn as the index has it.
-/

namespace Flowchart

/-- All declarations of a name declare the same action. -/
def Actions.Consistent (actions : Actions) : Prop :=
  ∀ d ∈ actions.declarations, ∀ e ∈ actions.declarations, d.name = e.name → d.action = e.action

/-- The names inside an action are those of its children. -/
theorem Declaration.mem_names_children {d : Declaration} {k : String} :
    (∃ c ∈ d.children, c.name = k) ↔ ∃ b ∈ d.action.bodies, k ∈ b.keys := by
  simp only [mem_children, Actions.mem_children, Table.keys, List.mem_map]
  constructor
  · rintro ⟨c, ⟨b, hb, n, a, hmem, rfl⟩, rfl⟩
    exact ⟨b, hb, _, hmem, rfl⟩
  · rintro ⟨b, hb, ⟨n, a⟩, hmem, rfl⟩
    exact ⟨_, ⟨b, hb, n, a, hmem, rfl⟩, rfl⟩

/-- The index has each name once. -/
theorem Index.nodup_keys (actions : Actions) : (Index.ofActions actions).1.keys.Nodup := by
  have hadd : ∀ (ds : List Declaration) (index : Index), index.keys.Nodup →
      (index.addAll ds).1.keys.Nodup := by
    intro ds
    induction ds with
    | nil => exact fun index h => h
    | cons d rest ih => exact fun index h => ih _ (Table.nodup_keys_put h d.name d)
  exact hadd actions.declarations [] List.nodup_nil

namespace Diagram

variable {actions : Actions} {styles : StyleTable} {ts : List Task} {m : Memo} {t : Trip}

/-! ## Every task is carried out -/

/-- The task is carried out by some of the strokes. -/
def CarriedOut (actions : Actions) (styles : StyleTable) (ss : List Stroke) (task : Task) : Prop :=
  ∃ (m : Memo) (part : Trip), Walks actions styles [task] m part ∧ part.strokes ⊆ ss

theorem lasting_carriedOut (actions : Actions) (styles : StyleTable) :
    Lasting (CarriedOut actions styles) := by
  rintro ss ss' task hsub ⟨m, part, hpart, hss⟩
  exact ⟨m, part, hpart, List.Subset.trans hss hsub⟩

/-- Whatever a trip or an action drawn on it asks for is carried out on a part of the trip. -/
theorem Walks.carriedOut (h : Walks actions styles ts m t) :
    t.Answers (CarriedOut actions styles) ts := by
  have hlasting := lasting_carriedOut actions styles
  induction h with
  | nil m => exact .nil _ m
  | @wire source target text note ts m t _ ih =>
    exact ih.cons hlasting ⟨m, _, (Walks.nil m).wire, by simp⟩ (by simp)
  | @leave id r ts m t _ ih =>
    exact ih.cons hlasting ⟨m, _, (Walks.nil m).leave, by simp⟩ (by simp)
  | @again d ts m t declared seen _ ih =>
    exact ih.cons hlasting ⟨m, _, (Walks.nil m).again declared seen, by simp⟩ (by simp)
  | @fresh d ts m before inside t declared new dependencies groups _ ih₁ ih₂ ih₃ =>
    exact ih₃.fresh hlasting ih₁ ih₂ (fun _ hs => by simp [hs]) (fun _ hs => by simp [hs])
      ⟨m, _, .fresh declared new dependencies groups (.nil _), by simp⟩
  | @unknown name dependency ts m t absent _ ih =>
    exact ih.cons hlasting ⟨m, _, (Walks.nil m).unknown absent, by simp⟩ (by simp)
  | @met name dependency d state ts m t known seen _ ih =>
    exact ih.cons hlasting ⟨m, _, .met known seen (.nil m), by simp⟩ (by simp)
  | @force name dependency d ts m first t known new drawn _ ih₁ ih₂ =>
    exact ih₂.cons hlasting ⟨m, _, .force known new drawn (.nil _), by simp⟩
      fun e he task htask => hlasting _ _ _ (List.subset_append_left _ _)
        (ih₁.drawn e he task htask)

theorem CarriedOut.connect_mem {ss : List Stroke} {source target note : String}
    {text : Option String} (h : CarriedOut actions styles ss (.wire source target text note)) :
    .connect source (nodeId target) text note ∈ ss := by
  obtain ⟨m, part, hpart, hsub⟩ := h
  cases hpart with
  | wire rest => exact hsub List.mem_cons_self

theorem CarriedOut.report_mem {ss : List Stroke} {name dependency : String}
    (h : CarriedOut actions styles ss (.depend name dependency))
    (habsent : (Index.ofActions actions).1.lookup dependency = none) :
    .report (.dependencyNotFound name dependency) ∈ ss := by
  obtain ⟨m, part, hpart, hsub⟩ := h
  cases hpart with
  | unknown absent rest => exact hsub List.mem_cons_self
  | met known seen rest =>
    rw [habsent] at known
    cases known
  | force known new drawn rest =>
    rw [habsent] at known
    cases known

/-! ## What a diagram shows for a name -/

/-- A diagram has the arrow, if perhaps written for another one of the same text. -/
def Canvas.Has (c : Canvas) (source target : String) (text : Option String) : Prop :=
  (Line.ofEdge source target text).render ∈ edgeTexts c.lines

theorem Drawn.has_of_connect {config : Config} {c : Conversion} (h : Drawn config actions c t)
    {source target note : String} {text : Option String}
    (hmem : .connect source target text note ∈ t.strokes) : c.canvas.Has source target text :=
  h.mem_edgeTexts.mpr ⟨_, List.mem_append_right _ hmem, rfl⟩

/-- The diagram with this history shows the action under the name: it is drawn, arrows lead to it
from what it runs after and from nothing else, and it leads to what is inside it. -/
structure Shows (actions : Actions) (c : Conversion) (history : List Moment) (name : String)
    (a : Action) : Prop where
  drawn : ∃ d, .draw d ∈ history ∧ d.name = name ∧ d.action = a
  /-- The arrows start where the other action ends, unless there is a cycle. -/
  after : ∀ k ∈ a.runAfter, ((Index.ofActions actions).1.lookup k).isSome →
    ∃ sources, .lead name k sources ∈ history ∧
      (∀ x ∈ sources, c.canvas.Has x (nodeId name) none) ∧
      (.dependencyCycle name k ∈ c.reports ∨ sources = c.memo.exitsOf k)
  missing : ∀ k ∈ a.runAfter, (Index.ofActions actions).1.lookup k = none →
    .dependencyNotFound name k ∈ c.reports
  only : ∀ k sources, .lead name k sources ∈ history → k ∈ a.runAfter
  wired : ∀ child text, a.Leads child text → c.canvas.Has (nodeId name) (nodeId child) text
  inside : ∀ b ∈ a.bodies, ∀ k ∈ b.keys, ∃ d, .draw d ∈ history ∧ d.name = k

/-- Whatever is drawn is shown as the declaration that was drawn has it. -/
theorem Drawn.shows {config : Config} {c : Conversion} (h : Drawn config actions c t)
    (hhalt : c.halt? = none) {history : List Moment}
    (hr : Recount actions config.styles (rootTasks actions) t [] history) {d : Declaration}
    (hd : .draw d ∈ history) : Shows actions c history d.name d.action := by
  have hhistory := h.hasHistory hhalt hr
  have hdrawn := hr.draw_mem_iff.mp hd
  have htasks := h.walks.carriedOut.drawn d hdrawn
  refine ⟨⟨d, hd, rfl, rfl⟩, fun k hk hknown => ?_, fun k hk habsent => ?_,
    fun k sources hmem => ?_, fun child text hleads => ?_, fun b hb k hk => ?_⟩
  · obtain ⟨before, later, hsplit⟩ := List.append_of_mem hd
    have hprefix : before ++ [.draw d] <+: [] ++ history :=
      ⟨later, by rw [hsplit, List.append_assoc, List.singleton_append, List.nil_append]⟩
    obtain ⟨⟨sources, hlead⟩, -⟩ := hr.chronicle.prepared before d hprefix k hk hknown
    have hlead : .lead d.name k sources ∈ history :=
      hsplit ▸ List.mem_append_left _ hlead
    refine ⟨sources, hlead, fun x hx => ?_, ?_⟩
    · exact h.has_of_connect (hr.stroke_mem hlead (List.mem_map_of_mem hx))
    · rcases hr.chronicle.leads d.name k sources hlead with hcycle | ⟨-, hsources⟩
      · exact Or.inl (h.mem_reports hhalt (hr.stroke_mem hcycle List.mem_cons_self))
      · exact Or.inr (h.memo_eq ▸ hsources)
  · have hdepend := htasks (.depend d.name k) (Or.inl (List.mem_map_of_mem hk))
    exact h.mem_reports hhalt (hdepend.report_mem habsent)
  · obtain ⟨e, he, hmem⟩ := hhistory.asked _ hmem _ rfl
    obtain ⟨k', hk', heq⟩ := List.mem_map.mp (hmem.resolve_right depend_not_mem_tasks)
    rw [Task.depend.injEq] at heq
    -- a name is drawn once, so no other declaration asks for arrows to it
    have hsame := List.inj_on_of_nodup_map hhistory.drawn_nodup (mem_drawnIn.mpr he)
      (mem_drawnIn.mpr hd) heq.1
    rw [← hsame, ← heq.2]
    exact hk'
  · obtain ⟨note, hwire⟩ := wire_mem_tasks.mpr ⟨rfl, hleads⟩
    exact h.has_of_connect (htasks _ (Or.inr hwire)).connect_mem
  · obtain ⟨e, he, rfl⟩ := Declaration.mem_names_children.mpr ⟨b, hb, hk⟩
    obtain ⟨d', hd', hname⟩ := (h.walks.visited_iff.mp
      (h.walks.visited_of_mem_children hdrawn he)).resolve_left fun hempty => hempty rfl
    exact ⟨d', hr.draw_mem_iff.mpr hd', hname⟩

/-- In a tree of consistent names each of them is drawn: what is declared inside any of the
declarations of a name is inside the one that is drawn. -/
theorem Drawn.draws_all {config : Config} {c : Conversion} (h : Drawn config actions c t)
    (hc : actions.Consistent) : ∀ d ∈ actions.declarations, ∃ e ∈ t.drawn, e.name = d.name := by
  have hdrawn : ∀ {n : String}, t.memo.Visited n → ∃ e ∈ t.drawn, e.name = n := fun hn =>
    (h.walks.visited_iff.mp hn).resolve_left fun hempty => hempty rfl
  apply declarations_induction
  · intro d hd
    exact hdrawn (h.walks.visited_of_mem_tasks (visit_mem_memberTasks.mpr hd))
  · rintro d hd ⟨e, he, hname⟩ child hchild
    have haction := hc e (h.walks.drawn_declared e he) d hd hname
    obtain ⟨b, hb, hk⟩ := Declaration.mem_names_children.mp ⟨child, hchild, rfl⟩
    obtain ⟨twin, htwin, hname⟩ := Declaration.mem_names_children.mpr ⟨b, haction ▸ hb, hk⟩
    exact hname ▸ hdrawn (h.walks.visited_of_mem_children he htwin)

/-- In such a tree the names drawn are those of the index. -/
theorem Drawn.names_perm {config : Config} {c : Conversion} (h : Drawn config actions c t)
    (hc : actions.Consistent) :
    (t.drawn.map Declaration.name).Perm (Index.ofActions actions).1.keys := by
  refine (List.perm_ext_iff_of_nodup h.names_drawn.2 (Index.nodup_keys actions)).mpr fun n => ?_
  rw [Table.mem_keys_iff, List.mem_map]
  constructor
  · rintro ⟨d, hd, rfl⟩
    exact Index.lookup_isSome (h.walks.drawn_declared d hd)
  · intro hn
    obtain ⟨d, hlookup⟩ := Option.isSome_iff_exists.mp hn
    obtain ⟨hd, rfl⟩ := Index.mem_declarations hlookup
    exact h.draws_all hc d hd

/-- Each of them looks as its declaration in the index does. -/
theorem Drawn.nodeEntries_perm {config : Config} {c : Conversion} (h : Drawn config actions c t)
    (hc : actions.Consistent) (styles : StyleTable) :
    (t.drawn.map (Declaration.nodeEntry styles)).Perm
      ((Index.ofActions actions).1.map fun e => e.2.nodeEntry styles) := by
  let look (n : String) : Option (Line × Option Line) :=
    ((Index.ofActions actions).1.lookup n).map (Declaration.nodeEntry styles)
  have hdrawn : ∀ d ∈ t.drawn, look d.name = some (d.nodeEntry styles) := by
    intro d hd
    have hdeclared := h.walks.drawn_declared d hd
    obtain ⟨e, hlookup⟩ := Option.isSome_iff_exists.mp (Index.lookup_isSome hdeclared)
    obtain ⟨he, hname⟩ := Index.mem_declarations hlookup
    simp only [look, hlookup, Option.map_some, Declaration.nodeEntry, Declaration.nodeLine,
      Declaration.classLine, hname, hc e he d hdeclared hname]
  have hindex : ∀ e ∈ (Index.ofActions actions).1, look e.1 = some (e.2.nodeEntry styles) := by
    intro e he
    simp only [look, Table.lookup_of_mem (Index.nodup_keys actions) he, Option.map_some]
  have hperm := (h.names_perm hc).filterMap look
  rw [Table.keys, List.filterMap_map, List.filterMap_map] at hperm
  rw [← List.filterMap_eq_map, ← List.filterMap_eq_map]
  exact List.filterMap_congr hdrawn ▸ List.filterMap_congr hindex ▸ hperm

/-! ## Diagrams -/

/-- Whatever an accepted definition holds, each name that is drawn is drawn once, and the diagram
shows it as the declaration that was drawn has it: its node and class, its dependencies, its arrows
and what is inside it. If all declarations of a name declare the same action, every name of the
index is drawn, and the diagram shows it as the index has it. Its nodes are then the start node and
those of the index. -/
theorem convert_redeclared {config : Config} {log : Log} {definition : Value} {c : Conversion}
    (h : (convert config log definition).2 = .ok c)
    (htree : Definition.tree? definition = some actions) :
    ∃ history, HasHistory config actions c history ∧
      (nodeLines c.canvas.lines).Perm
        (startEntry :: (drawnIn history).map (Declaration.nodeEntry config.styles)) ∧
      (∀ d, .draw d ∈ history → Shows actions c history d.name d.action) ∧
      (actions.Consistent →
        (∀ name d, (Index.ofActions actions).1.lookup name = some d →
          Shows actions c history name d.action) ∧
        (nodeLines c.canvas.lines).Perm
          (startEntry
            :: (Index.ofActions actions).1.map fun e => e.2.nodeEntry config.styles)) := by
  obtain ⟨t, ht⟩ := convert_drawn_of_tree h htree
  obtain ⟨history, hr⟩ := ht.walks.recount (chronicle_nil actions)
  have hshows : ∀ d, .draw d ∈ history → Shows actions c history d.name d.action :=
    fun d hd => ht.shows (convert_halt? h) hr hd
  refine ⟨history, ht.hasHistory (convert_halt? h) hr,
    ht.nodeLines_perm.trans ((hr.drawn.symm.map _).cons _), hshows, fun hc => ⟨?_, ?_⟩⟩
  · intro name d hlookup
    obtain ⟨hd, rfl⟩ := Index.mem_declarations hlookup
    obtain ⟨e, he, hname⟩ := ht.draws_all hc d hd
    rw [← hname, ← hc e (ht.walks.drawn_declared e he) d hd hname]
    exact hshows e (hr.draw_mem_iff.mpr he)
  · exact ht.nodeLines_perm.trans ((ht.nodeEntries_perm hc config.styles).cons _)

/-- A tree with the same step in two boxes. -/
def repeatedActions : Actions :=
  [("Left", .scope .scope [] [("Note", .simple "Http" [] [])]),
    ("Right", .scope .scope ["Left"] [("Note", .simple "Http" [] [])])]

theorem consistent_repeated : repeatedActions.Consistent := by
  simp [Actions.Consistent, repeatedActions, Actions.declarations, declarationsFrom,
    Action.declarations]

/-- The diagram of this tree shows the step once, as both boxes declare it. -/
theorem convert_redeclared_repeated : ∃ c history,
    (convert {} ⟨[], []⟩ (definitionOf repeatedActions.entries)).2 = .ok c ∧
      HasHistory {} repeatedActions c history ∧
      Shows repeatedActions c history "Note" (.simple "Http" [] []) ∧
      (nodeLines c.canvas.lines).length = 4 := by
  have hreadable : repeatedActions.Readable := by decide
  have haccepted := hreadable.convert_definitionOf ⟨[], []⟩
    (show (Conversion.ofActions {} repeatedActions).halt? = none by decide +kernel)
  obtain ⟨history, hhistory, -, -, hconsistent⟩ :=
    convert_redeclared haccepted hreadable.tree?_definitionOf
  obtain ⟨hshows, hnodes⟩ := hconsistent consistent_repeated
  exact ⟨_, history, haccepted, hhistory, hshows "Note" repeatedActions.declarations[3] rfl,
    hnodes.length_eq⟩

/-- A tree in which a step is declared again as a box. -/
def boxActions : Actions :=
  [("A", .simple "Http" [] []),
    ("S", .scope .scope [] [("A", .scope .scope [] [("B", .simple "Compose" [] [])])])]

/-- In the diagram of this tree the step is drawn, while the index has the box and the action inside
it, which is not drawn at all. -/
theorem convert_redeclared_box :
    ∃ c, (convert {} ⟨[], []⟩ (definitionOf boxActions.entries)).2 = .ok c ∧
      ((Index.ofActions boxActions).1.lookup "A").map (·.action.kind) = some "Scope" ∧
      Line.inClass "A" "Http" ∈ c.canvas.lines ∧ Line.inClass "A" "Scope" ∉ c.canvas.lines ∧
      ((Index.ofActions boxActions).1.lookup "B").isSome ∧ c.memo.progress? "B" = none := by
  have hreadable : boxActions.Readable := by decide
  refine ⟨_, hreadable.convert_definitionOf ⟨[], []⟩ (by decide +kernel), ?_⟩
  decide +kernel

end Diagram

end Flowchart
