import Flowchart.Proofs.Reachability

/-!
# The start node

The id of the start node is a word that an action may have as well, but only an action of that very
name has it. A diagram keeps its start node apart from the actions exactly if the walk has not come
to such an action.

* `nodeId_eq_startId_iff` says which names have the id of the start node;
* `Canvas.StartsApart` is a diagram that declares the start node once, with no arrow to it and with
  arrows from it to the top-level actions that run after nothing, and no others;
* `convert_start` says when an accepted definition has such a diagram.
-/

namespace Flowchart.Diagram

/-! ## Names -/

/-- A word is the image of nothing but itself, unless it has an underscore. -/
theorem eq_of_wordImage_eq {xs ys : List Char} (h : wordImage xs = ys) (hys : '_' ∉ ys) :
    xs = ys := by
  induction xs generalizing ys with
  | nil => exact h
  | cons x rest ih =>
    subst h
    rw [wordImage, List.map_cons, List.mem_cons, not_or] at hys
    show x :: rest = (if isWordChar x then x else '_') :: wordImage rest
    by_cases hx : isWordChar x
    · rw [if_pos hx, ← ih rfl hys.2]
    · rw [if_neg hx] at hys
      exact absurd rfl hys.1

/-- Only the name of the start node has the id of the start node. -/
theorem nodeId_eq_startId_iff {name : String} : nodeId name = startId ↔ name = startId := by
  constructor
  · intro h
    have hword : startWithLetter (wordImage name.toList) = startId.toList := by
      rw [← h, nodeId, String.toList_ofList]
    unfold startWithLetter at hword
    split at hword
    · exact String.toList_inj.mp (eq_of_wordImage_eq hword (by decide))
    · -- the id of the start node does not start with `N_`
      have hhead : some 'N' = startId.toList.head? := congrArg List.head? hword
      exact absurd hhead (by decide)
  · rintro rfl
    decide

/-! ## Lines that declare nodes -/

/-- The id of the node that a line declares. -/
def Line.declared? : Line → Option String
  | node id _ _ => some id
  | _ => none

/-- The ids of the nodes that lines declare, in order. -/
def declaredIds (ls : List Line) : List String := ls.filterMap Line.declared?

theorem declaredIds_eq (ls : List Line) :
    declaredIds ls = (nodeLines ls).filterMap fun p => p.1.declared? := by
  induction ls with
  | nil => rfl
  | cons l rest ih =>
    unfold declaredIds at ih ⊢
    cases l with
    | node id label shape => simp [nodeLines, Line.declared?, ih]
    | _ => exact ih

variable {config : Config} {actions : Actions} {c : Conversion} {t : Trip}

/-- A diagram declares the start node and a node for each action that it draws. -/
theorem Drawn.declaredIds_perm (h : Drawn config actions c t) :
    (declaredIds c.canvas.lines).Perm (startId :: t.drawn.map fun d => nodeId d.name) := by
  rw [declaredIds_eq]
  refine (h.nodeLines_perm.filterMap _).trans (List.Perm.of_eq ?_)
  simp [startEntry, Declaration.nodeEntry, Declaration.nodeLine, Line.ofNode, Line.declared?,
    Function.comp_def]

/-! ## The start node -/

/-- The start node is apart from the actions: it is declared once, no arrow leads to it, and its
arrows lead to the top-level actions that run after nothing. -/
structure Canvas.StartsApart (c : Canvas) (actions : Actions) : Prop where
  declared_once : (declaredIds c.lines).count startId = 1
  not_target : ∀ source label, Line.edge source startId label ∉ c.lines
  leads_iff : ∀ target label, Line.edge startId target label ∈ c.lines ↔
    label = none ∧ ∃ name a, (name, a) ∈ actions ∧ a.runAfter = [] ∧ target = nodeId name

/-- No node of a visited action is the start node if none of them has its name. -/
theorem Memo.Grounds.ne_startId {m : Memo} {id : String} (h : m.Grounds id)
    (hnot : ¬ m.Visited startId) : id ≠ startId := by
  obtain ⟨n, hn, rfl⟩ := h
  intro heq
  exact hnot (nodeId_eq_startId_iff.mp heq ▸ hn)

section Drawn

variable (h : Drawn config actions c t)
include h

/-- The start node is declared once more if an action has its name. -/
theorem Drawn.count_startId_eq_one_iff :
    (declaredIds c.canvas.lines).count startId = 1 ↔ ¬ t.memo.Visited startId := by
  have hmem : startId ∈ t.drawn.map (fun d => nodeId d.name) ↔ t.memo.Visited startId := by
    have hempty : ¬ Memo.empty.Visited startId := fun hv => hv rfl
    rw [h.walks.visited_iff, List.mem_map]
    simp only [nodeId_eq_startId_iff, hempty, false_or]
  rw [h.declaredIds_perm.count_eq, List.count_cons_self, ← hmem, ← List.count_eq_zero]
  omega

/-- The top-level actions have been visited. -/
theorem Drawn.grounds_of_mem {name : String} {a : Action} (ha : (name, a) ∈ actions) :
    t.memo.Grounds (nodeId name) :=
  ⟨name, h.walks.visited_of_mem_tasks (visit_mem_memberTasks.mpr
    (Actions.mem_children.mpr ⟨name, a, ha, rfl⟩)), rfl⟩

theorem Drawn.startsApart (hnot : ¬ t.memo.Visited startId) : c.canvas.StartsApart actions := by
  have hsource : ∀ target label, Line.edge startId target label ∈ c.canvas.lines →
      label = none ∧ ∃ name a, (name, a) ∈ actions ∧ a.runAfter = [] ∧ target = nodeId name := by
    intro target label hedge
    obtain ⟨text, note, hmem, heq⟩ := h.connect_of_edge_mem_lines hedge
    rcases List.mem_append.mp hmem with hmem | hmem
    · obtain ⟨name, hname, -, rfl, rfl, -⟩ := connect_mem_startStrokes.mp hmem
      obtain ⟨a, ha, hafter⟩ := mem_startingNames.mp hname
      rw [Line.ofEdge, Line.edge.injEq] at heq
      exact ⟨heq.2.2, name, a, ha, hafter, rfl⟩
    · have hgrounds := (h.grounded.arrows _ _ _ _ hmem).1
      exact absurd rfl (hgrounds.ne_startId hnot)
  refine ⟨h.count_startId_eq_one_iff.mpr hnot, fun source label hedge => ?_,
    fun target label => ⟨hsource target label, ?_⟩⟩
  · obtain ⟨text, note, hmem, -⟩ := h.connect_of_edge_mem_lines hedge
    rcases List.mem_append.mp hmem with hmem | hmem
    · obtain ⟨name, hname, -, heq, -, -⟩ := connect_mem_startStrokes.mp hmem
      obtain ⟨a, ha, -⟩ := mem_startingNames.mp hname
      exact (h.grounds_of_mem ha).ne_startId hnot heq.symm
    · exact (h.grounded.arrows _ _ _ _ hmem).2.ne_startId hnot rfl
  · rintro ⟨rfl, name, a, ha, hafter, rfl⟩
    have hmem : .connect startId (nodeId name) none "" ∈ startStrokes actions :=
      connect_mem_startStrokes.mpr ⟨name, mem_startingNames.mpr ⟨a, ha, hafter⟩, rfl, rfl, rfl, rfl⟩
    obtain ⟨label, hedge⟩ := h.leads_of_connect (List.mem_append_left t.strokes hmem)
    -- the arrow has no text, whichever stroke it comes from
    rwa [(hsource _ _ hedge).1] at hedge

end Drawn

/-- The diagram of an accepted definition keeps the start node apart from the actions if and only if
no action of its name has been visited. Such an action is declared; in a tree of distinct names it
is enough that it is declared. -/
theorem convert_start {config : Config} {log : Log} {definition : Value} {c : Conversion}
    {actions : Actions} (h : (convert config log definition).2 = .ok c)
    (htree : Definition.tree? definition = some actions) :
    (c.canvas.StartsApart actions ↔ ¬ c.memo.Visited startId) ∧
      (c.memo.Visited startId → ∃ d ∈ actions.declarations, d.name = startId) ∧
      (actions.Distinct → (∃ d ∈ actions.declarations, d.name = startId) →
        c.memo.Visited startId) := by
  obtain ⟨t, ht⟩ := convert_drawn_of_tree h htree
  rw [ht.memo_eq]
  refine ⟨⟨fun hstart => ht.count_startId_eq_one_iff.mp hstart.declared_once, ht.startsApart⟩,
    fun hvisited => ?_, ?_⟩
  · rcases ht.walks.visited_iff.mp hvisited with hempty | ⟨d, hd, hname⟩
    · exact absurd rfl hempty
    · exact ⟨d, ht.walks.drawn_declared d hd, hname⟩
  · rintro hdist ⟨d, hd, hname⟩
    exact ht.walks.visited_iff.mpr (Or.inr ⟨d, ht.walks.mem_drawn hdist d hd, hname⟩)

/-- No action of the sample has the name of the start node. -/
theorem convert_start_sample :
    (Conversion.ofEntries {} sampleEntries).canvas.StartsApart sampleActions := by
  have hnot : ¬ (Conversion.ofEntries {} sampleEntries).memo.Visited startId := by
    rw [Conversion.ofEntries, ofEntries_sample.1, Memo.Visited]
    decide +kernel
  exact (convert_start convert_sample.1 tree?_sample.1).1.mpr hnot

/-- A tree with an action of the name of the start node and one that runs after it. -/
def startActions : Actions :=
  [("Start", .simple "Compose" [] []), ("Notify", .simple "Compose" ["Start"] [])]

/-- The ids in this tree are all different. Still its diagram declares the start node twice, leads
to it, and leads from it to the action that runs after the other one. -/
theorem convert_start_taken :
    (startActions.declarations.map fun d => nodeId d.name).Nodup ∧
      ∃ c, (convert {} ⟨[], []⟩ (definitionOf startActions.entries)).2 = .ok c ∧
        ¬ c.canvas.StartsApart startActions ∧
        (declaredIds c.canvas.lines).count startId = 2 ∧
        Line.edge startId startId none ∈ c.canvas.lines ∧
        Line.edge startId "Notify" none ∈ c.canvas.lines := by
  have hreadable : startActions.Readable := by decide
  have hlines :
      (declaredIds (Conversion.ofActions {} startActions).canvas.lines).count startId = 2 ∧
      Line.edge startId startId none ∈ (Conversion.ofActions {} startActions).canvas.lines ∧
      Line.edge startId "Notify" none ∈ (Conversion.ofActions {} startActions).canvas.lines := by
    decide +kernel
  refine ⟨by decide, _, hreadable.convert_definitionOf ⟨[], []⟩ (by decide +kernel), ?_, hlines⟩
  exact fun hstart => hstart.not_target _ _ hlines.2.1

end Flowchart.Diagram
