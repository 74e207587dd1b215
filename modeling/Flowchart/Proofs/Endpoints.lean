import Flowchart.Proofs.Nodes

/-!
# The ends of arrows

No arrow of a diagram leads from or to a node that the diagram does not declare. An arrow may be
drawn before the nodes at its ends, so the proof keeps account of what a walk still owes.

* `Memo.Grounds` says that an id belongs to an action that has been visited, and `Backed` that the
  pending tasks owe no node which they will not draw: the target of an arrow is visited later in
  the same list;
* `Walks.grounded`: a trip with backed tasks grounds the ends of its arrows, as `Memo.GroundsEnds`
  says, and all its exit nodes;
* `convert_endpoints` says so of diagrams, for every definition that is accepted.
-/

namespace Flowchart.Diagram

/-! ## Grounded ids -/

/-- The id belongs to an action that the walk has come to. -/
def Memo.Grounds (m : Memo) (id : String) : Prop := ∃ n, m.Visited n ∧ nodeId n = id

/-- All exit nodes that are recorded belong to actions that the walk has come to. -/
def Memo.Settled (m : Memo) : Prop := ∀ e ∈ m.exits, ∀ x ∈ e.2, m.Grounds x

theorem Memo.Settled.grounds_exitsOf {m : Memo} (h : m.Settled) {n x : String} (hn : m.Visited n)
    (hx : x ∈ m.exitsOf n) : m.Grounds x := by
  rcases mem_exitsOf hx with ⟨e, he, hx⟩ | rfl
  · exact h e he x hx
  · exact ⟨n, hn, rfl⟩

theorem Memo.Settled.finish {m : Memo} (h : m.Settled) {k : String} {xs : List String}
    (hxs : ∀ x ∈ xs, (m.finish k xs).Grounds x) : (m.finish k xs).Settled := by
  intro e he x hx
  rcases Table.mem_put he with he | ⟨-, heq⟩
  · obtain ⟨n, hn, hid⟩ := h e he x hx
    exact ⟨n, hn.finish k xs, hid⟩
  · exact hxs x (heq ▸ hx)

/-- Both ends of each arrow among the strokes are grounded. -/
def Memo.GroundsEnds (m : Memo) (ss : List Stroke) : Prop :=
  ∀ source target text note, .connect source target text note ∈ ss →
    m.Grounds source ∧ m.Grounds target

namespace Memo.GroundsEnds

variable {m : Memo}

theorem of_none {ss : List Stroke}
    (h : ∀ source target text note, .connect source target text note ∉ ss) : m.GroundsEnds ss :=
  fun source target text note hmem => absurd hmem (h source target text note)

theorem append {ss ss' : List Stroke} (h : m.GroundsEnds ss) (h' : m.GroundsEnds ss') :
    m.GroundsEnds (ss ++ ss') := by
  intro source target text note hmem
  rcases List.mem_append.mp hmem with hmem | hmem
  · exact h source target text note hmem
  · exact h' source target text note hmem

theorem arrows {name dependency : String} (h : m.Settled) (hname : m.Visited name)
    (hdependency : m.Visited dependency) : m.GroundsEnds (m.arrows name dependency) := by
  intro source target text note hmem
  obtain ⟨hsource, rfl, -, -⟩ := connect_mem_arrows.mp hmem
  exact ⟨h.grounds_exitsOf hdependency hsource, name, hname, rfl⟩

theorem drawing {styles : StyleTable} {d : Declaration} {before inside : List Stroke}
    {r : Diagnostic} (hbefore : m.GroundsEnds before) (hinside : m.GroundsEnds inside) :
    m.GroundsEnds (before
      ++ (d.action.opening styles d.name ++ inside ++ d.action.closing d.name)
      ++ [Stroke.report r]) := by
  intro source target text note hmem
  rcases connect_mem_drawing.mp hmem with hmem | hmem
  · exact hbefore source target text note hmem
  · exact hinside source target text note hmem

end Memo.GroundsEnds

/-- What a task needs of the memory and of the tasks after it. -/
def Task.Backed (m : Memo) (later : List Task) : Task → Prop
  | wire source target _ _ => m.Grounds source ∧ ∃ d, .visit d ∈ later ∧ d.name = target
  | leave id _ => m.Grounds id
  | visit _ => True
  | depend name _ => m.Visited name

/-- Tasks whose needs are all met. -/
def Backed (m : Memo) : List Task → Prop
  | [] => True
  | task :: ts => task.Backed m ts ∧ Backed m ts

section Mono

variable {m m' : Memo} (hle : ∀ n, m.Visited n → m'.Visited n)
include hle

theorem Memo.Grounds.mono {x : String} (h : m.Grounds x) : m'.Grounds x := by
  obtain ⟨n, hn, rfl⟩ := h
  exact ⟨n, hle n hn, rfl⟩

theorem Memo.GroundsEnds.mono {ss : List Stroke} (h : m.GroundsEnds ss) : m'.GroundsEnds ss :=
  fun source target text note hmem =>
    (h source target text note hmem).imp (Memo.Grounds.mono hle) (Memo.Grounds.mono hle)

/-- Visiting more leaves backed tasks backed. -/
theorem Backed.mono {ts : List Task} (h : Backed m ts) : Backed m' ts := by
  induction ts with
  | nil => exact trivial
  | cons task ts ih =>
    refine ⟨?_, ih h.2⟩
    cases task with
    | wire source target text note => exact ⟨h.1.1.mono hle, h.1.2⟩
    | leave id d => exact Memo.Grounds.mono hle h.1
    | visit d => exact trivial
    | depend name dependency => exact hle name h.1

end Mono

theorem Backed.append {m : Memo} {ts us : List Task} (ht : Backed m ts) (hu : Backed m us) :
    Backed m (ts ++ us) := by
  induction ts with
  | nil => exact hu
  | cons task ts ih =>
    refine ⟨?_, ih ht.2⟩
    cases task with
    | wire source target text note =>
      obtain ⟨hsource, d, hd, hname⟩ := ht.1
      exact ⟨hsource, d, List.mem_append_left _ hd, hname⟩
    | leave id d => exact ht.1
    | visit d => exact trivial
    | depend name dependency => exact ht.1

/-- Each arrow into a group stands before the visit of its target. -/
theorem backed_memberTasks {m : Memo} {w : Wiring}
    (hw : ∀ entry, w.entry = some entry → m.Grounds entry) (isFirst : Bool)
    (ds : List Declaration) : Backed m (memberTasks w isFirst ds) := by
  induction ds generalizing isFirst with
  | nil => exact trivial
  | cons d rest ih =>
    have hvisit : Backed m (.visit d :: memberTasks w false rest) := ⟨trivial, ih false⟩
    rw [memberTasks, Wiring.tasks]
    split
    · rename_i entry hentry
      split
      · exact ⟨⟨hw entry hentry, d, List.mem_cons_self, rfl⟩, hvisit⟩
      · exact hvisit
    · exact hvisit

theorem backed_tasks {m : Memo} {d : Declaration} (h : m.Visited d.name) : Backed m d.tasks := by
  have hid : m.Grounds (nodeId d.name) := ⟨d.name, h, rfl⟩
  have hgroup : ∀ g : Group, Backed m (g.tasks (d.path ++ [d.name]) (nodeId d.name)) := by
    intro g
    rw [Group.tasks]
    split
    · refine backed_memberTasks (fun entry hentry => ?_) true _
      rw [Option.some.injEq] at hentry
      exact hentry ▸ hid
    · exact ⟨hid, trivial⟩
    · exact trivial
  rw [Declaration.tasks]
  induction d.action.groups d.name with
  | nil => exact trivial
  | cons g rest ih => exact (hgroup g).append ih

theorem backed_dependencyTasks {m : Memo} {d : Declaration} (h : m.Visited d.name) :
    Backed m d.dependencyTasks := by
  rw [Declaration.dependencyTasks]
  induction d.action.runAfter with
  | nil => exact trivial
  | cons dependency rest ih => exact ⟨h, ih⟩

/-! ## Trips -/

variable {actions : Actions} {styles : StyleTable} {ts : List Task} {m : Memo} {t : Trip}

/-- A trip at whose end everything it speaks of has been visited. -/
structure Trip.Grounded (t : Trip) : Prop where
  arrows : ∀ source target text note, .connect source target text note ∈ t.strokes →
    t.memo.Grounds source ∧ t.memo.Grounds target
  exits : ∀ x ∈ t.exits, t.memo.Grounds x
  settled : t.memo.Settled

/-- More may be drawn before a trip if its end grounds that as well. -/
theorem Trip.Grounded.prepend (ht : t.Grounded) {xs : List String} {ss : List Stroke}
    (hss : t.memo.GroundsEnds ss) (hxs : ∀ x ∈ xs, t.memo.Grounds x) (ds : List Declaration) :
    (t.prepend xs ss ds).Grounded := by
  refine ⟨hss.append ht.arrows, fun x hx => ?_, ht.settled⟩
  rcases List.mem_append.mp hx with hx | hx
  · exact hxs x hx
  · exact ht.exits x hx

/-- Every exit node of an action is its own or one of the groups inside it. -/
theorem mem_exitsFrom {d : Declaration} {inside : List String} {x : String}
    (h : x ∈ d.exitsFrom inside) : x = nodeId d.name ∨ x ∈ inside := by
  rw [Declaration.exitsFrom, mem_unique] at h
  split at h
  · exact Or.inl (List.mem_singleton.mp h)
  · exact Or.inr h

/-- A trip pays all debts of backed tasks. -/
theorem Walks.grounded (h : Walks actions styles ts m t) (hm : m.Settled) (hts : Backed m ts) :
    t.Grounded := by
  induction h with
  | nil m => exact ⟨by simp, by simp, hm⟩
  | @wire source target text note ts m t rest ih =>
    obtain ⟨⟨hsource, d, hd, rfl⟩, hrest⟩ := hts
    refine (ih hm hrest).prepend (fun source' target' text' note' hmem => ?_) (by simp) []
    cases List.mem_singleton.mp hmem
    -- the target is owed by a visit that is still to come
    exact ⟨hsource.mono fun n => rest.visited_mono, d.name, rest.visited_of_mem_tasks hd, rfl⟩
  | @leave id d ts m t rest ih =>
    refine (ih hm hts.2).prepend (.of_none (by simp)) (fun x hx => ?_) []
    rw [List.mem_singleton.mp hx]
    exact Memo.Grounds.mono (fun n => rest.visited_mono) hts.1
  | @again d ts m t _ seen rest ih =>
    refine (ih hm hts.2).prepend (.of_none (by simp)) (fun x hx => ?_) []
    exact (hm.grounds_exitsOf seen hx).mono fun n => rest.visited_mono
  | @fresh d ts m before inside t _ _ dependencies groups rest ih₁ ih₂ ih₃ =>
    have hstart : (m.start d.name).Settled := fun e he x hx =>
      (hm e he x hx).mono fun n hn => hn.start d.name
    have hbefore := ih₁ hstart (backed_dependencyTasks Memo.visited_start)
    have hseen : before.memo.Visited d.name := dependencies.visited_mono Memo.visited_start
    have hinside := ih₂ hbefore.settled (backed_tasks hseen)
    have hfinish : ∀ n, inside.memo.Visited n →
        (inside.memo.finish d.name (d.exitsFrom inside.exits)).Visited n :=
      fun n hn => hn.finish _ _
    -- everything visited on the way is still visited at the end of the trip
    have hlast : ∀ n, inside.memo.Visited n → t.memo.Visited n :=
      fun n hn => rest.visited_mono (hfinish n hn)
    have hexits : ∀ x ∈ d.exitsFrom inside.exits,
        (inside.memo.finish d.name (d.exitsFrom inside.exits)).Grounds x := by
      intro x hx
      rcases mem_exitsFrom hx with rfl | hx
      · exact ⟨d.name, Memo.visited_finish, rfl⟩
      · exact (hinside.exits x hx).mono hfinish
    have hbacked : Backed (inside.memo.finish d.name (d.exitsFrom inside.exits)) ts :=
      hts.2.mono fun n hn =>
        hfinish n (groups.visited_mono (dependencies.visited_mono (hn.start d.name)))
    have hends₁ : before.memo.GroundsEnds before.strokes := hbefore.arrows
    have hends₂ : inside.memo.GroundsEnds inside.strokes := hinside.arrows
    refine (ih₃ (hinside.settled.finish hexits) hbacked).prepend ?_ ?_ _
    · exact .drawing (hends₁.mono fun n hn => hlast n (groups.visited_mono hn)) (hends₂.mono hlast)
    · exact fun x hx => (hexits x hx).mono fun n => rest.visited_mono
  | @unknown name dependency ts m t _ rest ih =>
    exact (ih hm hts.2).prepend (.of_none (by simp)) (by simp) []
  | @met name dependency d state ts m t _ seen rest ih =>
    have hdependency : m.Visited dependency := by
      rw [Memo.Visited, seen]
      exact Option.some_ne_none _
    have hreports : t.memo.GroundsEnds (state.reports name dependency) :=
      .of_none fun _ _ _ _ => connect_not_mem_reports
    have harrows := Memo.GroundsEnds.arrows hm hts.1 hdependency
    exact (ih hm hts.2).prepend (hreports.append (harrows.mono fun n => rest.visited_mono))
      (by simp) []
  | @force name dependency d ts m first t known new drawn rest ih₁ ih₂ =>
    have hfirst := ih₁ hm ⟨trivial, trivial⟩
    have hends : first.memo.GroundsEnds first.strokes := hfirst.arrows
    have hdependency : first.memo.Visited dependency := by
      rw [← (Index.mem_declarations known).2]
      exact drawn.visited_of_mem_tasks List.mem_cons_self
    have harrows := Memo.GroundsEnds.arrows hfirst.settled (drawn.visited_mono hts.1) hdependency
    have ht := ih₂ hfirst.settled (hts.2.mono fun n => drawn.visited_mono)
    exact ht.prepend ((hends.append harrows).mono fun n => rest.visited_mono) (by simp) first.drawn

/-! ## Diagrams -/

/-- The canvas has a line that declares the node of this id. -/
def Canvas.Declares (c : Canvas) (id : String) : Prop :=
  ∃ label shape, Line.node id label shape ∈ c.lines

/-- The nodes that a diagram declares are the start node and those of the actions drawn. -/
theorem Drawn.declares_iff {config : Config} {c : Conversion} (h : Drawn config actions c t)
    {id : String} :
    c.canvas.Declares id ↔ id = startId ∨ ∃ d ∈ t.drawn, nodeId d.name = id := by
  constructor
  · rintro ⟨label, shape, hmem⟩
    obtain ⟨next, hnext⟩ := mem_nodeLines_of_mem hmem
    rcases List.mem_cons.mp (h.nodeLines_perm.mem_iff.mp hnext) with heq | hdrawn
    · simp only [startEntry, Line.ofNode, Prod.mk.injEq, Line.node.injEq] at heq
      exact Or.inl heq.1.1
    · obtain ⟨d, hd, heq⟩ := List.mem_map.mp hdrawn
      simp only [Declaration.nodeEntry, Declaration.nodeLine, Line.ofNode, Prod.mk.injEq,
        Line.node.injEq] at heq
      exact Or.inr ⟨d, hd, heq.1.1⟩
  · intro hid
    have hentry : ∀ e ∈ startEntry :: t.drawn.map (Declaration.nodeEntry config.styles),
        e.1 ∈ c.canvas.lines := fun e he =>
      mem_of_mem_nodeLines (h.nodeLines_perm.mem_iff.mpr he)
    rcases hid with rfl | ⟨d, hd, rfl⟩
    · exact ⟨_, _, hentry startEntry List.mem_cons_self⟩
    · exact ⟨_, _, hentry _ (List.mem_cons_of_mem _ (List.mem_map_of_mem hd))⟩

theorem Drawn.declares_of_grounds {config : Config} {c : Conversion} (h : Drawn config actions c t)
    {id : String} (hid : t.memo.Grounds id) : c.canvas.Declares id := by
  obtain ⟨n, hn, rfl⟩ := hid
  rcases h.walks.visited_iff.mp hn with hempty | ⟨d, hd, rfl⟩
  · exact absurd rfl hempty
  · exact h.declares_iff.mpr (Or.inr ⟨d, hd, rfl⟩)

theorem Drawn.grounded {config : Config} {c : Conversion} (h : Drawn config actions c t) :
    t.Grounded := by
  refine h.walks.grounded (fun e he => absurd he List.not_mem_nil) ?_
  refine backed_memberTasks (fun entry hentry => ?_) true _
  -- nothing leads into the top level by its wiring
  exact absurd hentry (Option.some_ne_none entry).symm

/-- Whatever an accepted definition holds, both ends of each arrow and all exit nodes are nodes that
the diagram declares, and these are the start node and the nodes of the actions drawn. -/
theorem convert_endpoints {config : Config} {log : Log} {definition : Value} {c : Conversion}
    (h : (convert config log definition).2 = .ok c) :
    ∃ actions, Definition.tree? definition = some actions ∧
      (∀ source target label, Line.edge source target label ∈ c.canvas.lines →
        c.canvas.Declares source ∧ c.canvas.Declares target) ∧
      (∀ e ∈ c.memo.exits, ∀ x ∈ e.2, c.canvas.Declares x) ∧
      (∀ id, c.canvas.Declares id → id = startId ∨
        ∃ d ∈ actions.declarations, c.memo.Visited d.name ∧ nodeId d.name = id) := by
  obtain ⟨actions, t, htree, ht⟩ := convert_drawn h
  refine ⟨actions, htree, fun source target label hedge => ?_, fun e he x hx => ?_,
    fun id hid => ?_⟩
  · obtain ⟨text, note, hmem | hmem⟩ := ht.connect_of_edge_mem hedge
    · obtain ⟨name, hname, rfl, rfl, -, -⟩ := connect_mem_startStrokes.mp hmem
      obtain ⟨a, ha, -⟩ := mem_startingNames.mp hname
      have hvisited : t.memo.Visited name := ht.walks.visited_of_mem_tasks
        (visit_mem_memberTasks.mpr (Actions.mem_children.mpr ⟨name, a, ha, rfl⟩))
      exact ⟨ht.declares_iff.mpr (Or.inl rfl), ht.declares_of_grounds ⟨name, hvisited, rfl⟩⟩
    · exact (ht.grounded.arrows _ _ _ _ hmem).imp ht.declares_of_grounds ht.declares_of_grounds
  · rw [ht.memo_eq] at he
    exact ht.declares_of_grounds (ht.grounded.settled e he x hx)
  · rcases ht.declares_iff.mp hid with rfl | ⟨d, hd, rfl⟩
    · exact Or.inl rfl
    · refine Or.inr ⟨d, ht.walks.drawn_declared d hd, ?_, rfl⟩
      rw [ht.memo_eq]
      exact ht.walks.visited_iff.mpr (Or.inr ⟨d, hd, rfl⟩)

/-- The arrow into a case of the sample has both of its ends. -/
theorem convert_endpoints_sample :
    (Conversion.ofEntries {} sampleEntries).canvas.Declares "Check" ∧
      (Conversion.ofEntries {} sampleEntries).canvas.Declares "Send" := by
  obtain ⟨-, -, hedges, -, -⟩ := convert_endpoints convert_sample.1
  refine hedges "Check" "Send" (some "Paid") ?_
  rw [Conversion.ofEntries, ofEntries_sample.1]
  decide +kernel

end Flowchart.Diagram
