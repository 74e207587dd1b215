import Flowchart.Diagram.Walk
import Flowchart.Proofs.Memory
import Flowchart.Proofs.Tree

/-!
# The walk as a relation

`Plan.walk` recurses on a bound for its depth. This file says what the walk does without a bound,
and shows that the bound is never reached.

* `Task` is what is still to be done at a place of the walk, and `Declaration.tasks` what the groups
  inside an action ask for;
* `Walks` relates tasks and a memory to the `Trip` that carries them out: the nodes it ends at, what
  it draws, which declarations, and the memory after it. Its rules are the cases of the walk, so a
  property of every walk is an induction over them;
* `walks_walkAll`: the walk over all actions of a well-formed tree is such a trip. It rests on the
  bound `Plan.depth`: a deeper visit is at a name of the index that had not been visited.
-/

namespace Flowchart.Diagram

/-! ## Tasks -/

/-- A thing to be done on a walk. -/
inductive Task where
  /-- Draw an arrow from a node to the node of an action. -/
  | wire (source target : String) (text : Option String) (note : String)
  /-- Report an empty group; the node of its action is an exit. -/
  | leave (id : String) (d : Diagnostic)
  /-- Visit a declared action; its exit nodes are exits. -/
  | visit (d : Declaration)
  /-- See to an action that the action `name` runs after. -/
  | depend (name dependency : String)

/-- The arrow to an action of a group, if there is one. -/
def Wiring.tasks (w : Wiring) (isFirst : Bool) (name : String) : List Task :=
  match w.entry with
  | some entry =>
    if w.reach = .every ∨ (w.reach = .first ∧ isFirst) then [.wire entry name w.text w.note]
    else []
  | none => []

/-- Visits of the members of a group, each after its arrow. -/
def memberTasks (w : Wiring) (isFirst : Bool) : List Declaration → List Task
  | [] => []
  | d :: rest => w.tasks isFirst d.name ++ .visit d :: memberTasks w false rest

/-- What a group at a path asks for, inside the action whose node is `id`. -/
def Group.tasks (path : List String) (id : String) (g : Group) : List Task :=
  match g.actions.isEmpty, g.whenEmpty with
  | false, _ => memberTasks ⟨some id, g.reach, g.text, g.note⟩ true (g.actions.children path)
  | true, some d => [.leave id d]
  | true, none => []

end Flowchart.Diagram

namespace Flowchart.Declaration

open Diagram

/-- What the groups inside a declared action ask for. -/
def tasks (d : Declaration) : List Task :=
  (d.action.groups d.name).flatMap (Group.tasks (d.path ++ [d.name]) (nodeId d.name))

/-- The declarations directly inside an action are the members of its groups. -/
theorem children_eq_groups (d : Declaration) :
    d.children = (d.action.groups d.name).flatMap
      fun g => g.actions.children (d.path ++ [d.name]) := by
  obtain ⟨name, action, path, container⟩ := d
  cases action with
  | simple kind runAfter body => simp [children, Action.bodies, Action.branches, Action.groups]
  | condition runAfter yes no => simp [children, Action.bodies, Action.branches, Action.groups]
  | switch runAfter cases default =>
    cases default with
    | none =>
      simp [children, Action.bodies, Action.branches, Action.groups, List.flatMap_map,
        Actions.children]
    | some default =>
      simp [children, Action.bodies, Action.branches, Action.groups, List.flatMap_map]
  | scope kind runAfter body => simp [children, Action.bodies, Action.branches, Action.groups]

/-- What the actions ask for that a declared action runs after. -/
def dependencyTasks (d : Declaration) : List Task :=
  d.action.runAfter.map (.depend d.name)

/-- The exit nodes of a declared action whose groups end at `inside`. -/
def exitsFrom (d : Declaration) (inside : List String) : List String :=
  unique (if d.action.endsAtNode && inside.isEmpty then [nodeId d.name] else inside)

end Flowchart.Declaration

namespace Flowchart.Diagram

/-! ## Trips -/

/-- A part of a walk: the nodes it ends at, its strokes, the declarations it has drawn in the order
in which it came to them, and the memory after it. -/
structure Trip where
  exits : List String
  strokes : List Stroke
  drawn : List Declaration
  memo : Memo

/-- A trip with something before it. -/
def Trip.prepend (t : Trip) (exits : List String) (strokes : List Stroke)
    (drawn : List Declaration) : Trip :=
  ⟨exits ++ t.exits, strokes ++ t.strokes, drawn ++ t.drawn, t.memo⟩

/-- A trip without the declarations. -/
def Trip.leg (t : Trip) : Leg := ⟨t.exits, t.strokes, t.memo⟩

section Prepend

variable (t : Trip) (xs : List String) (ss : List Stroke) (ds : List Declaration)

@[simp] theorem Trip.exits_prepend : (t.prepend xs ss ds).exits = xs ++ t.exits := rfl

@[simp] theorem Trip.strokes_prepend : (t.prepend xs ss ds).strokes = ss ++ t.strokes := rfl

@[simp] theorem Trip.drawn_prepend : (t.prepend xs ss ds).drawn = ds ++ t.drawn := rfl

@[simp] theorem Trip.memo_prepend : (t.prepend xs ss ds).memo = t.memo := rfl

end Prepend

/-- The arrows from where an action ends to an action that runs after it. -/
def Memo.arrows (m : Memo) (name dependency : String) : List Stroke :=
  (m.exitsOf dependency).map fun source => .connect source (nodeId name) none ""

/-- What is reported when an action runs after one that has been visited. -/
def Progress.reports (name dependency : String) : Progress → List Stroke
  | .underway => [.report (.dependencyCycle name dependency)]
  | .done => []

/-- The plan of a tree. -/
def Plan.ofActions (actions : Actions) (styles : StyleTable) : Plan :=
  ⟨(Index.ofActions actions).1, styles⟩

/-- Carrying out tasks one after another, from a memory. -/
inductive Walks (actions : Actions) (styles : StyleTable) : List Task → Memo → Trip → Prop where
  | nil (m : Memo) : Walks actions styles [] m ⟨[], [], [], m⟩
  | wire {source target : String} {text : Option String} {note : String} {ts : List Task}
      {m : Memo} {t : Trip} (rest : Walks actions styles ts m t) :
      Walks actions styles (.wire source target text note :: ts) m
        (t.prepend [] [.connect source (nodeId target) text note] [])
  | leave {id : String} {d : Diagnostic} {ts : List Task} {m : Memo} {t : Trip}
      (rest : Walks actions styles ts m t) :
      Walks actions styles (.leave id d :: ts) m (t.prepend [id] [.report d] [])
  /-- An action that has been visited is not drawn again. -/
  | again {d : Declaration} {ts : List Task} {m : Memo} {t : Trip}
      (declared : d ∈ actions.declarations) (seen : m.Visited d.name)
      (rest : Walks actions styles ts m t) :
      Walks actions styles (.visit d :: ts) m (t.prepend (m.exitsOf d.name) [] [])
  /-- Any other action is marked, then what it runs after is seen to, then the action is drawn. -/
  | fresh {d : Declaration} {ts : List Task} {m : Memo} {before inside t : Trip}
      (declared : d ∈ actions.declarations) (new : m.progress? d.name = none)
      (dependencies : Walks actions styles d.dependencyTasks (m.start d.name) before)
      (groups : Walks actions styles d.tasks before.memo inside)
      (rest : Walks actions styles ts (inside.memo.finish d.name (d.exitsFrom inside.exits)) t) :
      Walks actions styles (.visit d :: ts) m
        (t.prepend (d.exitsFrom inside.exits)
          (before.strokes
            ++ (d.action.opening styles d.name ++ inside.strokes ++ d.action.closing d.name)
            ++ [.report (.exitNodes d.name (d.exitsFrom inside.exits))])
          (d :: (before.drawn ++ inside.drawn)))
  | unknown {name dependency : String} {ts : List Task} {m : Memo} {t : Trip}
      (absent : (Index.ofActions actions).1.lookup dependency = none)
      (rest : Walks actions styles ts m t) :
      Walks actions styles (.depend name dependency :: ts) m
        (t.prepend [] [.report (.dependencyNotFound name dependency)] [])
  | met {name dependency : String} {d : Declaration} {state : Progress} {ts : List Task}
      {m : Memo} {t : Trip}
      (known : (Index.ofActions actions).1.lookup dependency = some d)
      (seen : m.progress? dependency = some state) (rest : Walks actions styles ts m t) :
      Walks actions styles (.depend name dependency :: ts) m
        (t.prepend [] (state.reports name dependency ++ m.arrows name dependency) [])
  /-- An action that has not been visited is drawn ahead of the one that runs after it. -/
  | force {name dependency : String} {d : Declaration} {ts : List Task} {m : Memo}
      {first t : Trip} (known : (Index.ofActions actions).1.lookup dependency = some d)
      (new : m.progress? dependency = none) (drawn : Walks actions styles [.visit d] m first)
      (rest : Walks actions styles ts first.memo t) :
      Walks actions styles (.depend name dependency :: ts) m
        (t.prepend [] (first.strokes ++ first.memo.arrows name dependency) first.drawn)

variable {actions : Actions} {styles : StyleTable}

/-- Trips may be made one after the other. -/
theorem Walks.append {ts us : List Task} {m : Memo} {t u : Trip}
    (ht : Walks actions styles ts m t) (hu : Walks actions styles us t.memo u) :
    Walks actions styles (ts ++ us) m (u.prepend t.exits t.strokes t.drawn) := by
  induction ht with
  | nil m => exact hu
  | wire _ ih => exact (ih hu).wire
  | leave _ ih => exact (ih hu).leave
  | again declared seen _ ih =>
    have h := Walks.again declared seen (ih hu)
    simpa [Trip.prepend] using h
  | fresh declared new dependencies groups _ _ _ ih =>
    have h := Walks.fresh declared new dependencies groups (ih hu)
    simpa [Trip.prepend] using h
  | unknown absent _ ih => exact (ih hu).unknown absent
  | @met name dependency _ _ ts m _ known seen _ ih =>
    have h : Walks actions styles (.depend name dependency :: (ts ++ us)) m _ :=
      .met known seen (ih hu)
    simpa [Trip.prepend] using h
  | @force name dependency _ ts m _ _ known new drawn _ _ ih =>
    have h : Walks actions styles (.depend name dependency :: (ts ++ us)) m _ :=
      .force known new drawn (ih hu)
    simpa [Trip.prepend] using h

/-! ## What a trip does to the memory -/

/-- A trip keeps what the memory says about the actions that were visited before it. -/
theorem Walks.progress?_of_visited {ts : List Task} {m : Memo} {t : Trip}
    (h : Walks actions styles ts m t) {n : String} (hn : m.Visited n) :
    t.memo.progress? n = m.progress? n := by
  induction h with
  | nil m => rfl
  | wire _ ih | leave _ ih | again _ _ _ ih | unknown _ _ ih | met _ _ _ ih => exact ih hn
  | @fresh d ts m before inside t declared new dependencies groups rest ih₁ ih₂ ih₃ =>
    -- the walk marks only the new name, so what has been visited keeps its mark
    have hne : n ≠ d.name := by
      rintro rfl
      exact hn new
    have hstart : (m.start d.name).progress? n = m.progress? n := by
      rw [Memo.progress?_start, if_neg hne]
    have hbefore := (ih₁ (by rwa [Memo.Visited, hstart])).trans hstart
    have hinside := (ih₂ (by rwa [Memo.Visited, hbefore])).trans hbefore
    have hfinish : (inside.memo.finish d.name (d.exitsFrom inside.exits)).progress? n
        = m.progress? n := by
      rw [Memo.progress?_finish, if_neg hne, hinside]
    exact (ih₃ (by rwa [Memo.Visited, hfinish])).trans hfinish
  | force _ _ _ _ ih₁ ih₂ =>
    have hfirst := ih₁ hn
    exact (ih₂ (by rwa [Memo.Visited, hfirst])).trans hfirst

theorem Walks.visited_mono {ts : List Task} {m : Memo} {t : Trip}
    (h : Walks actions styles ts m t) {n : String} (hn : m.Visited n) : t.memo.Visited n := by
  rw [Memo.Visited, h.progress?_of_visited hn]
  exact hn

/-! ## The bound on the depth -/

/-- How many names of the index have not been visited. -/
def unvisited (actions : Actions) (m : Memo) : Nat :=
  (Index.ofActions actions).1.keys.countP fun n => (m.progress? n).isNone

theorem unvisited_le_of_visited {m m' : Memo} (h : ∀ n, m.Visited n → m'.Visited n) :
    unvisited actions m' ≤ unvisited actions m := by
  refine List.countP_mono_left fun n _ hn => ?_
  rw [Option.isNone_iff_eq_none] at hn ⊢
  by_contra hm
  exact h n hm hn

theorem Walks.unvisited_le {ts : List Task} {m : Memo} {t : Trip}
    (h : Walks actions styles ts m t) : unvisited actions t.memo ≤ unvisited actions m :=
  unvisited_le_of_visited fun _ => h.visited_mono

/-- Starting a declared action leaves one name less to visit. -/
theorem unvisited_start_lt {d : Declaration} (hd : d ∈ actions.declarations) {m : Memo}
    (hm : m.progress? d.name = none) :
    unvisited actions (m.start d.name) < unvisited actions m := by
  have hkey : d.name ∈ (Index.ofActions actions).1.keys :=
    Table.mem_keys_iff.mpr (Index.lookup_isSome hd)
  have hstart : ∀ n, ((m.start d.name).progress? n).isNone
      = (!(n == d.name) && (m.progress? n).isNone) := by
    intro n
    rw [Memo.progress?_start]
    by_cases h : n = d.name
    · simp [h]
    · simp [h]
  rw [unvisited, unvisited, List.countP_eq_length_filter, List.countP_eq_length_filter]
  simp only [hstart]
  rw [← List.filter_filter, List.length_filter_lt_length_iff_exists]
  exact ⟨d.name, List.mem_filter.mpr ⟨hkey, by simp [hm]⟩, by simp⟩

/-! ## The walk within a bound -/

/-- A walk that does what it should wherever fewer than `bound` names are left to visit. -/
def Faithful (actions : Actions) (styles : StyleTable) (bound : Nat) (visit : Visit) : Prop :=
  ∀ d ∈ actions.declarations, ∀ m, unvisited actions m < bound →
    ∃ t, Walks actions styles [.visit d] m t ∧ t.leg = visit d.name d.container m

/-- The arrow into a group before the rest of a trip. -/
theorem Walks.wired {ts : List Task} {m : Memo} {t : Trip} (h : Walks actions styles ts m t)
    (w : Wiring) (isFirst : Bool) (name : String) :
    Walks actions styles (w.tasks isFirst name ++ ts) m
      (t.prepend [] (w.strokes isFirst name) []) := by
  cases hentry : w.entry with
  | none =>
    simp only [Wiring.tasks, Wiring.strokes, hentry]
    exact h
  | some entry =>
    simp only [Wiring.tasks, Wiring.strokes, hentry]
    split
    · exact h.wire
    · exact h

section Faithful

variable {bound : Nat} {visit : Visit}

theorem walks_visitEach (hv : Faithful actions styles bound visit) (path : List String)
    (group : Actions) (w : Wiring) (entries : List (String × Action))
    (hd : ∀ e ∈ entries, (⟨e.1, e.2, path, group⟩ : Declaration) ∈ actions.declarations)
    (isFirst : Bool) {m : Memo} (hm : unvisited actions m < bound) :
    ∃ t, Walks actions styles
        (memberTasks w isFirst (entries.map fun e => ⟨e.1, e.2, path, group⟩)) m t ∧
      t.leg = visitEach visit group w isFirst (Table.keys entries) m := by
  induction entries generalizing isFirst m with
  | nil => exact ⟨_, .nil m, rfl⟩
  | cons e rest ih =>
    obtain ⟨t₁, h₁, hleg₁⟩ := hv _ (hd e List.mem_cons_self) m hm
    obtain ⟨t₂, h₂, hleg₂⟩ := ih (fun e he => hd e (List.mem_cons_of_mem _ he)) false
      (Nat.lt_of_le_of_lt h₁.unvisited_le hm)
    refine ⟨_, (h₁.append h₂).wired w isFirst e.1, ?_⟩
    have hkeys : Table.keys (e :: rest) = e.1 :: Table.keys rest := rfl
    rw [hkeys, visitEach, Leg.andThen, Leg.andThen, Leg.ofStrokes]
    simp only [← hleg₁, Trip.leg, Trip.prepend, List.nil_append, List.append_assoc] at hleg₂ ⊢
    rw [← hleg₂]

/-- One group inside an action: the same nodes up to repetitions, the same strokes and memory. -/
theorem walks_groupLeg (hv : Faithful actions styles bound visit) (path : List String)
    (id : String) (g : Group) (hd : ∀ d ∈ g.actions.children path, d ∈ actions.declarations)
    {m : Memo} (hm : unvisited actions m < bound) :
    ∃ t, Walks actions styles (g.tasks path id) m t ∧
      unique t.exits = unique (g.leg visit id m).exits ∧
      t.strokes = (g.leg visit id m).strokes ∧ t.memo = (g.leg visit id m).memo := by
  cases hempty : g.actions.isEmpty with
  | false =>
    obtain ⟨t, ht, hleg⟩ := walks_visitEach hv path g.actions
      ⟨some id, g.reach, g.text, g.note⟩ g.actions
      (fun e he => hd _ (Actions.mem_children.mpr ⟨e.1, e.2, he, rfl⟩)) true hm
    refine ⟨t, ?_, ?_⟩
    · simpa only [Group.tasks, hempty, Actions.children] using ht
    · -- the group drops repeated nodes, the trip keeps them
      simp only [Group.leg, hempty, visitGroup, ← hleg, unique_unique]
      exact ⟨rfl, rfl, rfl⟩
  | true =>
    cases hreport : g.whenEmpty with
    | none =>
      refine ⟨_, by simpa only [Group.tasks, hempty, hreport] using Walks.nil m, ?_⟩
      simp only [Group.leg, hempty, hreport]
      exact ⟨rfl, rfl, rfl⟩
    | some d =>
      refine ⟨_, by simpa only [Group.tasks, hempty, hreport] using (Walks.nil m).leave, ?_⟩
      simp only [Group.leg, hempty, hreport]
      exact ⟨rfl, rfl, rfl⟩

/-- The groups inside an action, one after another. -/
theorem walks_groupLegs (hv : Faithful actions styles bound visit) (path : List String)
    (id : String) (gs : List Group)
    (hd : ∀ g ∈ gs, ∀ d ∈ g.actions.children path, d ∈ actions.declarations)
    {m : Memo} (hm : unvisited actions m < bound) :
    ∃ t, Walks actions styles (gs.flatMap (Group.tasks path id)) m t ∧
      unique t.exits = unique (groupLegs visit id gs m).exits ∧
      t.strokes = (groupLegs visit id gs m).strokes ∧
      t.memo = (groupLegs visit id gs m).memo := by
  induction gs generalizing m with
  | nil => exact ⟨_, .nil m, rfl, rfl, rfl⟩
  | cons g rest ih =>
    obtain ⟨t₁, h₁, hexits₁, hstrokes₁, hmemo₁⟩ :=
      walks_groupLeg hv path id g (hd g List.mem_cons_self) hm
    obtain ⟨t₂, h₂, hexits₂, hstrokes₂, hmemo₂⟩ := ih
      (fun g hg => hd g (List.mem_cons_of_mem _ hg)) (Nat.lt_of_le_of_lt h₁.unvisited_le hm)
    refine ⟨_, h₁.append h₂, ?_⟩
    rw [groupLegs, Leg.andThen]
    simp only [Trip.prepend, ← hmemo₁, ← hstrokes₁, hstrokes₂, hmemo₂, and_self, and_true]
    exact unique_append_congr hexits₁ hexits₂

theorem walks_connectDependencies (hv : Faithful actions styles bound visit) (name : String)
    (dependencies : List String) {m : Memo} (hm : unvisited actions m < bound) :
    ∃ t, Walks actions styles (dependencies.map (.depend name)) m t ∧
      t.leg = (Plan.ofActions actions styles).connectDependencies visit name dependencies m := by
  induction dependencies generalizing m with
  | nil => exact ⟨_, .nil m, rfl⟩
  | cons dependency rest ih =>
    rw [Plan.connectDependencies, Leg.andThen, List.map_cons, Plan.connectDependency]
    cases hknown : (Plan.ofActions actions styles).index.lookup dependency with
    | none =>
      obtain ⟨t, ht, hleg⟩ := ih hm
      refine ⟨_, ht.unknown hknown, ?_⟩
      simp only [← hleg, Leg.ofStrokes, Trip.leg, Trip.prepend]
    | some d =>
      cases hseen : m.progress? dependency with
      | none =>
        obtain ⟨hd, rfl⟩ := Index.mem_declarations hknown
        obtain ⟨t₁, h₁, hleg₁⟩ := hv d hd m hm
        obtain ⟨t₂, h₂, hleg₂⟩ := ih (Nat.lt_of_le_of_lt h₁.unvisited_le hm)
        refine ⟨_, h₁.force hknown hseen h₂, ?_⟩
        simp only [← hleg₁, ← hleg₂, Leg.ofStrokes, Trip.leg, Trip.prepend, Memo.arrows]
      | some state =>
        obtain ⟨t, ht, hleg⟩ := ih hm
        refine ⟨_, ht.met hknown hseen, ?_⟩
        cases state with
        | underway =>
          simp only [← hleg, Leg.ofStrokes, Trip.leg, Trip.prepend, Memo.arrows,
            Progress.reports]
        | done =>
          simp only [← hleg, Leg.ofStrokes, Trip.leg, Trip.prepend, Memo.arrows,
            Progress.reports]

theorem connectDependencies_exits (p : Plan) (visit : Visit) (name : String)
    (dependencies : List String) (m : Memo) :
    (p.connectDependencies visit name dependencies m).exits = [] := by
  induction dependencies generalizing m with
  | nil => rfl
  | cons dependency rest ih =>
    rw [Plan.connectDependencies, Leg.andThen, Plan.connectDependency]
    cases p.index.lookup dependency with
    | none => exact ih m
    | some d => exact ih _

/-- What an action draws inside the strokes of its own. -/
theorem walks_leg (hv : Faithful actions styles bound visit) {d : Declaration}
    (hd : d ∈ actions.declarations) {m : Memo} (hm : unvisited actions m < bound) :
    ∃ t, Walks actions styles d.tasks m t ∧
      d.exitsFrom t.exits = unique (d.action.leg styles visit d.name m).exits ∧
      d.action.opening styles d.name ++ t.strokes ++ d.action.closing d.name
        = (d.action.leg styles visit d.name m).strokes ∧
      t.memo = (d.action.leg styles visit d.name m).memo := by
  have hgroups : ∀ g ∈ d.action.groups d.name, ∀ c ∈ g.actions.children (d.path ++ [d.name]),
      c ∈ actions.declarations := by
    intro g hg c hc
    refine children_mem_declarations hd ?_
    rw [d.children_eq_groups]
    exact List.mem_flatMap.mpr ⟨g, hg, hc⟩
  obtain ⟨t, ht, hexits, hstrokes, hmemo⟩ :=
    walks_groupLegs hv (d.path ++ [d.name]) (nodeId d.name) (d.action.groups d.name) hgroups hm
  have hempty : t.exits.isEmpty
      = (groupLegs visit (nodeId d.name) (d.action.groups d.name) m).exits.isEmpty := by
    rw [Bool.eq_iff_iff, List.isEmpty_iff, List.isEmpty_iff, ← unique_eq_nil, hexits,
      unique_eq_nil]
  refine ⟨t, ht, ?_, ?_, hmemo⟩
  · rw [Declaration.exitsFrom, Action.leg, hempty]
    split
    · rfl
    · exact hexits
  · rw [hstrokes]
    rfl

/-- One step of the walk allows for one name more. -/
theorem Faithful.step (hw : actions.WellFormed) (hv : Faithful actions styles bound visit) :
    Faithful actions styles (bound + 1) ((Plan.ofActions actions styles).visit visit) := by
  intro d hd m hm
  rw [Plan.visit, hw.lookup_container hd]
  cases hseen : m.progress? d.name with
  | some state =>
    refine ⟨_, .again hd (by rw [Memo.Visited, hseen]; exact Option.some_ne_none _) (.nil m), ?_⟩
    simp only [Trip.leg, Trip.prepend, List.append_nil]
  | none =>
    -- the name is new, so marking it makes room for the bound below
    have hlt : unvisited actions (m.start d.name) < bound := by
      have := unvisited_start_lt hd hseen
      omega
    obtain ⟨before, hbefore, hleg⟩ := walks_connectDependencies hv d.name d.action.runAfter hlt
    obtain ⟨inside, hinside, hexits, hstrokes, hmemo⟩ :=
      walks_leg hv hd (Nat.lt_of_le_of_lt hbefore.unvisited_le hlt)
    refine ⟨_, .fresh hd hseen hbefore hinside (.nil _), ?_⟩
    have hnil := connectDependencies_exits (Plan.ofActions actions styles) visit d.name
      d.action.runAfter (m.start d.name)
    rw [← hleg] at hnil
    -- dependencies give no exits, so those of the action are the ones inside it
    have hnone : before.exits = [] := hnil
    simp only [Trip.leg, Trip.prepend, List.append_nil, Leg.andThen, ← hleg, hnone,
      List.nil_append, hexits, hstrokes, hmemo]
    rfl

end Faithful

theorem faithful_walkWithin (styles : StyleTable) (hw : actions.WellFormed) (bound : Nat) :
    Faithful actions styles bound ((Plan.ofActions actions styles).walkWithin bound) := by
  induction bound with
  | zero => exact fun d _ m hm => absurd hm (Nat.not_lt_zero _)
  | succ bound ih => exact ih.step hw

/-- The bound of the walk exceeds the number of names that can be left to visit. -/
theorem unvisited_lt_depth (m : Memo) :
    unvisited actions m < (Plan.ofActions actions styles).depth := by
  have h : unvisited actions m ≤ (Index.ofActions actions).1.keys.length := List.countP_le_length
  rw [Table.keys, List.length_map] at h
  exact Nat.lt_succ_of_le h

/-- The walk over all actions of a tree is a trip. -/
theorem walks_walkAll (styles : StyleTable) (hw : actions.WellFormed) (w : Wiring) (m : Memo) :
    ∃ t, Walks actions styles (memberTasks w true (actions.children [])) m t ∧
      unique t.exits = ((Plan.ofActions actions styles).walkAll actions w m).exits ∧
      t.strokes = ((Plan.ofActions actions styles).walkAll actions w m).strokes ∧
      t.memo = ((Plan.ofActions actions styles).walkAll actions w m).memo := by
  obtain ⟨t, ht, hleg⟩ := walks_visitEach (faithful_walkWithin styles hw _) [] actions
    w actions (fun e he => root_mem_declarations (Actions.mem_children.mpr ⟨e.1, e.2, he, rfl⟩))
    true (unvisited_lt_depth m)
  refine ⟨t, ht, ?_⟩
  rw [Plan.walkAll, visitGroup, Plan.walk, ← hleg]
  exact ⟨rfl, rfl, rfl⟩

end Flowchart.Diagram
