import Flowchart.Proofs.Nodes
import Flowchart.Proofs.Reports

/-!
# The history of a walk

What a walk does, moment by moment: what it draws and reports, and what it remembers.

* `Moment` is a thing that happens, `Moment.strokes` is what it draws, and `Memo.afterAll` is the
  memory after a history;
* `Chronicle` is what holds of a history at any time: an action is drawn after everything it runs
  after is done, or else a cycle has been reported, and the arrows to it start at the exit nodes
  that are remembered. Each kind of moment keeps it so, `Chronicle.start` to `Chronicle.lead`;
* `Walks.recount`: every trip has such a history, in which each arrow is asked for by a task;
* `convert_dependencies` says what this means for a diagram.
-/

namespace Flowchart.Diagram

/-! ## Moments -/

/-- A thing that happens on a walk. -/
inductive Moment where
  /-- An action is marked before it is drawn. -/
  | start (name : String)
  /-- The box of an action is opened, if it has one, and its node is declared. -/
  | draw (d : Declaration)
  /-- The box is closed; the action is marked as done and its exit nodes are kept. -/
  | finish (d : Declaration) (exits : List String)
  /-- An arrow into a group inside an action. -/
  | wire (source target : String) (text : Option String) (note : String)
  /-- A group inside an action is empty. -/
  | leave (id : String) (r : Diagnostic)
  /-- An action runs after one that is not declared. -/
  | missing (name dependency : String)
  /-- An action runs after one that is being drawn. -/
  | cycle (name dependency : String)
  /-- The arrows to an action from one that it runs after. -/
  | lead (name dependency : String) (sources : List String)

namespace Moment

/-- What is drawn and reported at a moment. -/
def strokes (styles : StyleTable) : Moment → List Stroke
  | start _ => []
  | draw d => d.action.opening styles d.name
  | finish d exits => d.action.closing d.name ++ [.report (.exitNodes d.name exits)]
  | wire source target text note => [.connect source (nodeId target) text note]
  | leave _ r => [.report r]
  | missing name dependency => [.report (.dependencyNotFound name dependency)]
  | cycle name dependency => [.report (.dependencyCycle name dependency)]
  | lead name _ sources =>
    sources.map fun source => .connect source (nodeId name) none ""

/-- The task that asks for what happens. -/
def task? : Moment → Option Task
  | wire source target text note => some (.wire source target text note)
  | leave id r => some (.leave id r)
  | missing name dependency | cycle name dependency | lead name dependency _ =>
    some (.depend name dependency)
  | start _ | draw _ | finish _ _ => none

theorem task?_ne_visit (x : Moment) (d : Declaration) : x.task? ≠ some (.visit d) := by
  cases x with
  | _ => simp [task?]

/-- The declaration that is drawn. -/
def drawn? : Moment → Option Declaration
  | draw d => some d
  | _ => none

theorem drawn?_eq_none {x : Moment} {task : Task} (h : x.task? = some task) : x.drawn? = none := by
  cases x with
  | draw d => cases h
  | _ => rfl

/-- A moment that leaves the memory alone and neither draws an action nor leads to one. -/
def IsAside : Moment → Prop
  | wire _ _ _ _ | leave _ _ | missing _ _ | cycle _ _ => True
  | start _ | draw _ | finish _ _ | lead _ _ _ => False

end Moment

/-- The declarations that are drawn in a history, in order. -/
def drawnIn (history : List Moment) : List Declaration := history.filterMap Moment.drawn?

theorem drawnIn_append (history history' : List Moment) :
    drawnIn (history ++ history') = drawnIn history ++ drawnIn history' :=
  List.filterMap_append

theorem mem_drawnIn {history : List Moment} {d : Declaration} :
    d ∈ drawnIn history ↔ .draw d ∈ history := by
  rw [drawnIn, List.mem_filterMap]
  constructor
  · rintro ⟨x, hx, hd⟩
    cases x with
    | draw e =>
      cases hd
      exact hx
    | _ => cases hd
  · exact fun h => ⟨_, h, rfl⟩

/-- The memory after a moment. -/
def Memo.after (m : Memo) : Moment → Memo
  | .start name => m.start name
  | .finish d exits => m.finish d.name exits
  | _ => m

/-- The memory after a history. -/
def Memo.afterAll (history : List Moment) : Memo := history.foldl after empty

theorem Memo.afterAll_concat (history : List Moment) (x : Moment) :
    afterAll (history ++ [x]) = (afterAll history).after x := by
  rw [afterAll, List.foldl_append]
  rfl

/-- The action is done and these are its exit nodes. -/
def Memo.Ended (m : Memo) (name : String) (exits : List String) : Prop :=
  m.progress? name = some .done ∧ m.exits.lookup name = some exits

theorem Memo.Ended.exitsOf_eq {m m' : Memo} {name : String} {exits : List String}
    (h : m.Ended name exits) (h' : m'.Ended name exits) : m.exitsOf name = m'.exitsOf name := by
  rw [exitsOf, exitsOf, h.2, h'.2]

/-! ## Histories -/

/-- At the end of the history the action is done with these exit nodes: one of its declarations was
drawn, and finished afterwards. -/
structure DoneIn (actions : Actions) (history : List Moment) (name : String)
    (exits : List String) : Prop where
  ended : (Memo.afterAll history).Ended name exits
  finished : ∃ e ∈ actions.declarations, e.name = name ∧
    [.draw e, .finish e exits].Sublist history

/-- Everything that a declared action runs after has been seen to: there are arrows from it, and
either it is done or the cycle was reported. -/
def Prepared (actions : Actions) (history : List Moment) (d : Declaration) : Prop :=
  ∀ k ∈ d.action.runAfter, ((Index.ofActions actions).1.lookup k).isSome →
    (∃ sources, .lead d.name k sources ∈ history) ∧
      (.cycle d.name k ∈ history ∨ ∃ exits, DoneIn actions history k exits)

/-- A history and the memory after it. -/
structure Chronicle (actions : Actions) (history : List Moment) (m : Memo) : Prop where
  afterAll_eq : Memo.afterAll history = m
  done : ∀ k, m.progress? k = some .done → ∃ exits, DoneIn actions history k exits
  /-- What was done when an action was drawn has kept its exit nodes since. -/
  prepared : ∀ before d, before ++ [.draw d] <+: history → Prepared actions before d
  kept : ∀ before k exits, before <+: history → (Memo.afterAll before).Ended k exits →
    m.Ended k exits
  leads : ∀ name k sources, .lead name k sources ∈ history → .cycle name k ∈ history ∨
    (m.progress? k = some .done ∧ sources = m.exitsOf k)

theorem chronicle_nil (actions : Actions) : Chronicle actions [] .empty := by
  refine ⟨rfl, ?_, ?_, ?_, ?_⟩
  · intro k hk
    simp [Memo.progress?, Memo.empty] at hk
  · intro before d hprefix
    simp at hprefix
  · intro before k exits hprefix hended
    rw [List.prefix_nil.mp hprefix] at hended
    exact hended
  · exact fun name k sources hmem => absurd hmem List.not_mem_nil

namespace Chronicle

variable {actions : Actions} {history : List Moment} {m : Memo}

/-- A moment is added. What is done stays done; a new action that is done has been drawn and
finished; an action is drawn prepared, and an arrow to it starts where it should. -/
theorem concat (h : Chronicle actions history m) {x : Moment}
    (keep : ∀ k exits, m.Ended k exits → (m.after x).Ended k exits)
    (done : ∀ k, (m.after x).progress? k = some .done →
      m.progress? k = some .done ∨ ∃ exits, DoneIn actions (history ++ [x]) k exits)
    (draw : ∀ d, x = .draw d → Prepared actions history d)
    (lead : ∀ name k sources, x = .lead name k sources → .cycle name k ∈ history ∨
      (m.progress? k = some .done ∧ sources = m.exitsOf k)) :
    Chronicle actions (history ++ [x]) (m.after x) := by
  have hmemory : Memo.afterAll (history ++ [x]) = m.after x := by
    rw [Memo.afterAll_concat, h.afterAll_eq]
  -- what was done before the moment is done after it, with the same exit nodes
  have hdone : ∀ k exits, DoneIn actions history k exits →
      DoneIn actions (history ++ [x]) k exits := by
    rintro k exits ⟨hended, e, he, hname, hfinished⟩
    rw [h.afterAll_eq] at hended
    exact ⟨hmemory ▸ keep k exits hended, e, he, hname,
      hfinished.trans (List.sublist_append_left _ _)⟩
  refine ⟨hmemory, fun k hk => ?_, fun before d hprefix => ?_,
    fun before k exits hprefix hended => ?_, fun name k sources hmem => ?_⟩
  · rcases done k hk with hk | hk
    · obtain ⟨exits, hk⟩ := h.done k hk
      exact ⟨exits, hdone k exits hk⟩
    · exact hk
  · rcases List.prefix_concat_iff.mp hprefix with heq | hprefix
    · obtain ⟨rfl, hx⟩ := List.append_inj' heq rfl
      exact draw d (List.singleton_inj.mp hx).symm
    · exact h.prepared before d hprefix
  · rcases List.prefix_concat_iff.mp hprefix with rfl | hprefix
    · exact hmemory ▸ hended
    · exact keep k exits (h.kept before k exits hprefix hended)
  · have hlead : .cycle name k ∈ history ∨
        (m.progress? k = some .done ∧ sources = m.exitsOf k) := by
      rcases List.mem_append.mp hmem with hmem | hmem
      · exact h.leads name k sources hmem
      · exact lead name k sources (List.mem_singleton.mp hmem).symm
    rcases hlead with hcycle | ⟨hk, rfl⟩
    · exact Or.inl (List.mem_append_left _ hcycle)
    · obtain ⟨exits, hk⟩ := h.done k hk
      have hended := h.afterAll_eq ▸ hk.ended
      have hafter := keep k exits hended
      exact Or.inr ⟨hafter.1, hended.exitsOf_eq hafter⟩

theorem aside (h : Chronicle actions history m) {x : Moment} (hx : x.IsAside) :
    Chronicle actions (history ++ [x]) m := by
  have hafter : m.after x = m := by
    cases x with
    | start name => exact hx.elim
    | finish d exits => exact hx.elim
    | _ => rfl
  have hconcat := h.concat (x := x) (by rw [hafter]; exact fun _ _ hk => hk)
    (by rw [hafter]; exact fun _ hk => Or.inl hk) (by rintro d rfl; exact hx.elim)
    (by rintro name k sources rfl; exact hx.elim)
  rwa [hafter] at hconcat

/-- An action is marked. -/
theorem start (h : Chronicle actions history m) {name : String} (hnew : m.progress? name = none) :
    Chronicle actions (history ++ [.start name]) (m.start name) := by
  have hother : ∀ k, m.progress? k = some .done → k ≠ name := by
    rintro k hk rfl
    rw [hnew] at hk
    cases hk
  refine h.concat (x := .start name) ?_ ?_ (by simp) (by simp)
  · intro k exits hk
    refine ⟨?_, hk.2⟩
    rw [Memo.after, Memo.progress?_start, if_neg (hother k hk.1)]
    exact hk.1
  · intro k hk
    rw [Memo.after, Memo.progress?_start] at hk
    split at hk
    · cases hk
    · exact Or.inl hk

/-- An action is drawn after everything it runs after has been seen to. -/
theorem draw (h : Chronicle actions history m) {d : Declaration}
    (hd : Prepared actions history d) : Chronicle actions (history ++ [.draw d]) m := by
  refine h.concat (x := .draw d) (fun _ _ hk => hk) (fun _ hk => Or.inl hk) ?_ (by simp)
  intro e he
  cases he
  exact hd

/-- An action that has been drawn is finished. -/
theorem finish (h : Chronicle actions history m) {d : Declaration}
    (hd : d ∈ actions.declarations) (hdrawn : .draw d ∈ history)
    (hnew : m.progress? d.name ≠ some .done) (exits : List String) :
    Chronicle actions (history ++ [.finish d exits]) (m.finish d.name exits) := by
  have hother : ∀ k, m.progress? k = some .done → k ≠ d.name := by
    rintro k hk rfl
    exact hnew hk
  refine h.concat (x := .finish d exits) ?_ ?_ (by simp) (by simp)
  · intro k exits' hk
    rw [Memo.Ended, Memo.after, Memo.progress?_finish, Memo.lookup_exits_finish,
      if_neg (hother k hk.1), if_neg (hother k hk.1)]
    exact hk
  · intro k hk
    by_cases hname : k = d.name
    · subst hname
      refine Or.inr ⟨exits, ?_, d, hd, rfl, ?_⟩
      · rw [Memo.afterAll_concat, h.afterAll_eq, Memo.Ended, Memo.after, Memo.lookup_exits_finish,
          if_pos rfl]
        exact ⟨hk, rfl⟩
      · exact (List.singleton_sublist.mpr hdrawn).append (List.Sublist.refl [_])
    · rw [Memo.after, Memo.progress?_finish, if_neg hname] at hk
      exact Or.inl hk

/-- Arrows lead to an action from one that is done, or from one in a cycle that was reported. -/
theorem lead (h : Chronicle actions history m) (name k : String) (sources : List String)
    (hk : .cycle name k ∈ history ∨ (m.progress? k = some .done ∧ sources = m.exitsOf k)) :
    Chronicle actions (history ++ [.lead name k sources]) m := by
  refine h.concat (x := .lead name k sources) (fun _ _ hk => hk) (fun _ hk => Or.inl hk)
    (by simp) ?_
  intro name' k' sources' heq
  cases heq
  exact hk

end Chronicle

/-! ## Trips -/

/-- A trip from the end of one history to the end of a longer one. -/
structure Recount (actions : Actions) (styles : StyleTable) (ts : List Task) (t : Trip)
    (past recent : List Moment) : Prop where
  chronicle : Chronicle actions (past ++ recent) t.memo
  strokes_eq : recent.flatMap (Moment.strokes styles) = t.strokes
  drawn : (drawnIn recent).Perm t.drawn
  /-- Whatever happens by a task is asked for by the trip, or by an action that was drawn on it. -/
  asked : ∀ x ∈ recent, ∀ task, x.task? = some task →
    task ∈ ts ∨ ∃ d ∈ t.drawn, task ∈ d.dependencyTasks ∨ task ∈ d.tasks
  seen : ∀ name k, .depend name k ∈ ts → ((Index.ofActions actions).1.lookup k).isSome →
    (∃ sources, .lead name k sources ∈ recent) ∧
      (.cycle name k ∈ recent ∨ t.memo.progress? k = some .done)

section Recount

variable {actions : Actions} {styles : StyleTable} {ts : List Task} {m : Memo} {t : Trip}

/-- The history of a task goes before that of the tasks after it. -/
theorem Recount.cons {task : Task} {past own rest : List Moment} {exits : List String}
    {strokes : List Stroke} {drawn : List Declaration}
    (h : Recount actions styles ts t (past ++ own) rest)
    (hstrokes : own.flatMap (Moment.strokes styles) = strokes)
    (hdrawn : (drawnIn own).Perm drawn)
    (hasked : ∀ x ∈ own, ∀ task', x.task? = some task' →
      task' = task ∨ ∃ d ∈ drawn, task' ∈ d.dependencyTasks ∨ task' ∈ d.tasks)
    (hseen : ∀ name k, task = .depend name k → ((Index.ofActions actions).1.lookup k).isSome →
      (∃ sources, .lead name k sources ∈ own) ∧
        (.cycle name k ∈ own ∨ t.memo.progress? k = some .done)) :
    Recount actions styles (task :: ts) (t.prepend exits strokes drawn) past (own ++ rest) := by
  refine ⟨?_, ?_, ?_, fun x hx task' htask => ?_, fun name k hmem hk => ?_⟩
  · rw [← List.append_assoc]
    exact h.chronicle
  · rw [List.flatMap_append, hstrokes, h.strokes_eq]
    rfl
  · rw [drawnIn_append, Trip.drawn_prepend]
    exact hdrawn.append h.drawn
  · rw [Trip.drawn_prepend]
    rcases List.mem_append.mp hx with hx | hx
    · rcases hasked x hx task' htask with rfl | ⟨d, hd, hmem⟩
      · exact Or.inl List.mem_cons_self
      · exact Or.inr ⟨d, List.mem_append_left _ hd, hmem⟩
    · rcases h.asked x hx task' htask with hmem | ⟨d, hd, hmem⟩
      · exact Or.inl (List.mem_cons_of_mem _ hmem)
      · exact Or.inr ⟨d, List.mem_append_right _ hd, hmem⟩
  · rcases List.mem_cons.mp hmem with heq | hmem
    · obtain ⟨⟨sources, hlead⟩, hdone⟩ := hseen name k heq.symm hk
      exact ⟨⟨sources, List.mem_append_left _ hlead⟩, hdone.imp_left (List.mem_append_left _)⟩
    · obtain ⟨⟨sources, hlead⟩, hdone⟩ := h.seen name k hmem hk
      exact ⟨⟨sources, List.mem_append_right _ hlead⟩, hdone.imp_left (List.mem_append_right _)⟩

/-- Nothing is drawn on the way if only the task itself makes things happen. -/
theorem Recount.own {task : Task} {past own rest : List Moment} {exits : List String}
    {strokes : List Stroke} (h : Recount actions styles ts t (past ++ own) rest)
    (hown : ∀ x ∈ own, x.task? = some task)
    (hstrokes : own.flatMap (Moment.strokes styles) = strokes)
    (hseen : ∀ name k, task = .depend name k → ((Index.ofActions actions).1.lookup k).isSome →
      (∃ sources, .lead name k sources ∈ own) ∧
        (.cycle name k ∈ own ∨ t.memo.progress? k = some .done)) :
    Recount actions styles (task :: ts) (t.prepend exits strokes []) past (own ++ rest) := by
  refine h.cons hstrokes ?_ (fun x hx task' htask => ?_) hseen
  · rw [drawnIn, List.filterMap_eq_nil_iff.mpr fun x hx => Moment.drawn?_eq_none (hown x hx)]
  · rw [hown x hx, Option.some.injEq] at htask
    exact Or.inl htask.symm

/-- What an action runs after has been seen to before the action is drawn. -/
theorem Recount.prepared {d : Declaration} {past recent : List Moment}
    (h : Recount actions styles d.dependencyTasks t past recent) :
    Prepared actions (past ++ recent) d := by
  intro k hk hknown
  obtain ⟨⟨sources, hlead⟩, hdone⟩ := h.seen d.name k (List.mem_map_of_mem hk) hknown
  refine ⟨⟨sources, List.mem_append_right _ hlead⟩, ?_⟩
  rcases hdone with hcycle | hdone
  · exact Or.inl (List.mem_append_right _ hcycle)
  · exact Or.inr (h.chronicle.done k hdone)

theorem Recount.draw_mem_iff {past recent : List Moment}
    (h : Recount actions styles ts t past recent) {d : Declaration} :
    .draw d ∈ recent ↔ d ∈ t.drawn :=
  mem_drawnIn.symm.trans h.drawn.mem_iff

/-- What is drawn at any moment is drawn on the trip. -/
theorem Recount.stroke_mem {past recent : List Moment}
    (h : Recount actions styles ts t past recent) {x : Moment} (hx : x ∈ recent) {s : Stroke}
    (hs : s ∈ x.strokes styles) : s ∈ t.strokes :=
  h.strokes_eq ▸ List.mem_flatMap.mpr ⟨x, hx, hs⟩

/-- An action that is drawn has a history of its own: it is marked, what it runs after is seen to,
it is drawn, and after what is inside it it is finished. -/
theorem Recount.fresh {d : Declaration} {before inside : Trip} {past ms₁ ms₂ rest : List Moment}
    {exits : List String}
    (hbefore : Recount actions styles d.dependencyTasks before (past ++ [Moment.start d.name]) ms₁)
    (hinside : Recount actions styles d.tasks inside
      (past ++ [Moment.start d.name] ++ ms₁ ++ [Moment.draw d]) ms₂)
    (hrest : Recount actions styles ts t
      (past ++ [Moment.start d.name] ++ ms₁ ++ [Moment.draw d] ++ ms₂ ++ [Moment.finish d exits])
      rest) :
    Recount actions styles (.visit d :: ts)
      (t.prepend exits
        (before.strokes
          ++ (d.action.opening styles d.name ++ inside.strokes ++ d.action.closing d.name)
          ++ [.report (.exitNodes d.name exits)])
        (d :: (before.drawn ++ inside.drawn))) past
      (Moment.start d.name :: (ms₁ ++ Moment.draw d :: (ms₂ ++ [Moment.finish d exits]))
        ++ rest) := by
  have hpast : past ++ [Moment.start d.name] ++ ms₁ ++ [Moment.draw d] ++ ms₂
        ++ [Moment.finish d exits]
      = past ++ (Moment.start d.name :: (ms₁ ++ Moment.draw d :: (ms₂
        ++ [Moment.finish d exits]))) := by
    simp
  rw [hpast] at hrest
  refine hrest.cons ?_ ?_ (fun x hx task htask => Or.inr ?_) (by simp)
  · simp [Moment.strokes, hbefore.strokes_eq, hinside.strokes_eq]
  · have hown : drawnIn (Moment.start d.name :: (ms₁ ++ Moment.draw d :: (ms₂
          ++ [Moment.finish d exits])))
        = drawnIn ms₁ ++ d :: drawnIn ms₂ := by
      simp [drawnIn, List.filterMap_cons, Moment.drawn?]
    rw [hown]
    exact List.perm_middle.trans ((hbefore.drawn.append hinside.drawn).cons d)
  · have hbelow : ∀ e, e ∈ before.drawn ∨ e ∈ inside.drawn →
        e ∈ d :: (before.drawn ++ inside.drawn) := fun e he =>
      List.mem_cons_of_mem _ (List.mem_append.mpr he)
    simp only [List.mem_cons, List.mem_append, List.not_mem_nil, or_false] at hx
    rcases hx with rfl | hx | rfl | hx | rfl
    · cases htask
    · rcases hbefore.asked x hx task htask with hmem | ⟨e, he, hmem⟩
      · exact ⟨d, List.mem_cons_self, Or.inl hmem⟩
      · exact ⟨e, hbelow e (Or.inl he), hmem⟩
    · cases htask
    · rcases hinside.asked x hx task htask with hmem | ⟨e, he, hmem⟩
      · exact ⟨d, List.mem_cons_self, Or.inr hmem⟩
      · exact ⟨e, hbelow e (Or.inr he), hmem⟩
    · cases htask

/-- What happens when an action runs after one that has been visited, before the arrows. -/
def Progress.moments (name dependency : String) : Progress → List Moment
  | underway => [.cycle name dependency]
  | done => []

/-- Arrows from an action that has been visited come after the report of a cycle. -/
theorem Recount.met {name dependency : String} {state : Progress} {m : Memo}
    {past rest : List Moment}
    (hdone : state = .done → t.memo.progress? dependency = some .done)
    (h : Recount actions styles ts t (past ++ (state.moments name dependency
      ++ [Moment.lead name dependency (m.exitsOf dependency)])) rest) :
    Recount actions styles (.depend name dependency :: ts)
      (t.prepend [] (state.reports name dependency ++ m.arrows name dependency) []) past
      (state.moments name dependency ++ [Moment.lead name dependency (m.exitsOf dependency)]
        ++ rest) := by
  refine h.own ?_ ?_ fun name' k heq _ => ?_
  · cases state <;> simp [Progress.moments, Moment.task?]
  · cases state <;> simp [Progress.moments, Moment.strokes, Progress.reports, Memo.arrows]
  · cases heq
    refine ⟨⟨m.exitsOf dependency, by simp⟩, ?_⟩
    cases state with
    | underway => exact Or.inl (by simp [Progress.moments])
    | done => exact Or.inr (hdone rfl)

/-- Arrows from an action that is drawn first come after all that happens there. -/
theorem Recount.force {name : String} {d : Declaration} {first : Trip}
    {past ms₁ rest : List Moment} (hfirst : Recount actions styles [.visit d] first past ms₁)
    (hdone : t.memo.progress? d.name = some .done)
    (h : Recount actions styles ts t
      (past ++ (ms₁ ++ [Moment.lead name d.name (first.memo.exitsOf d.name)])) rest) :
    Recount actions styles (.depend name d.name :: ts)
      (t.prepend [] (first.strokes ++ first.memo.arrows name d.name) first.drawn) past
      (ms₁ ++ [Moment.lead name d.name (first.memo.exitsOf d.name)] ++ rest) := by
  refine h.cons ?_ ?_ (fun x hx task htask => ?_) fun name' k heq _ => ?_
  · rw [List.flatMap_append, hfirst.strokes_eq, List.flatMap_singleton]
    rfl
  · have hown : drawnIn (ms₁ ++ [Moment.lead name d.name (first.memo.exitsOf d.name)])
        = drawnIn ms₁ := by
      rw [drawnIn_append]
      exact List.append_nil _
    exact hown ▸ hfirst.drawn
  · rcases List.mem_append.mp hx with hx | hx
    · rcases hfirst.asked x hx task htask with hmem | hmem
      · rw [List.mem_singleton.mp hmem] at htask
        exact absurd htask (x.task?_ne_visit d)
      · exact Or.inr hmem
    · rw [List.mem_singleton.mp hx] at htask
      exact Or.inl (Option.some.inj htask).symm
  · cases heq
    exact ⟨⟨first.memo.exitsOf d.name, by simp⟩, Or.inr hdone⟩

/-- Every trip has a history, which goes on from the one before it. -/
theorem Walks.recount (h : Walks actions styles ts m t) {past : List Moment}
    (hp : Chronicle actions past m) : ∃ recent, Recount actions styles ts t past recent := by
  induction h generalizing past with
  | nil m =>
    exact ⟨[], by rwa [List.append_nil], rfl, List.Perm.refl [], by simp, by simp⟩
  | @wire source target text note ts m t _ ih =>
    obtain ⟨rest, hrest⟩ := ih (hp.aside (x := .wire source target text note) trivial)
    exact ⟨_, hrest.own (by simp [Moment.task?]) rfl (by simp)⟩
  | @leave id r ts m t _ ih =>
    obtain ⟨rest, hrest⟩ := ih (hp.aside (x := .leave id r) trivial)
    exact ⟨_, hrest.own (by simp [Moment.task?]) rfl (by simp)⟩
  | @again d ts m t _ _ _ ih =>
    obtain ⟨rest, hrest⟩ := ih hp
    rw [← List.append_nil past] at hrest
    exact ⟨_, hrest.own (by simp) rfl (by simp)⟩
  | @fresh d ts m before inside t declared new dependencies groups rest ih₁ ih₂ ih₃ =>
    obtain ⟨ms₁, hbefore⟩ := ih₁ (hp.start new)
    obtain ⟨ms₂, hinside⟩ := ih₂ (hbefore.chronicle.draw hbefore.prepared)
    have hunderway : inside.memo.progress? d.name = some .underway := by
      rw [groups.underway_iff, dependencies.underway_iff, Memo.progress?_start, if_pos rfl]
    have hfinish := hinside.chronicle.finish declared (by simp) (by rw [hunderway]; simp)
      (d.exitsFrom inside.exits)
    obtain ⟨ms₃, hrest⟩ := ih₃ hfinish
    exact ⟨_, hbefore.fresh hinside hrest⟩
  | @unknown name dependency ts m t absent _ ih =>
    obtain ⟨rest, hrest⟩ := ih (hp.aside (x := .missing name dependency) trivial)
    refine ⟨_, hrest.own (by simp [Moment.task?]) rfl ?_⟩
    rintro name' k heq hk
    cases heq
    rw [absent] at hk
    cases hk
  | @met name dependency d state ts m t known seen rest ih =>
    cases state with
    | underway =>
      have hcycle := hp.aside (x := .cycle name dependency) trivial
      obtain ⟨ms, hrest⟩ :=
        ih (hcycle.lead name dependency (m.exitsOf dependency) (Or.inl (by simp)))
      rw [List.append_assoc] at hrest
      exact ⟨_, Recount.met (by simp) hrest⟩
    | done =>
      have hvisited : m.Visited dependency := by
        rw [Memo.Visited, seen]
        exact Option.some_ne_none _
      obtain ⟨ms, hrest⟩ := ih (hp.lead name dependency (m.exitsOf dependency) (Or.inr ⟨seen, rfl⟩))
      exact ⟨_, Recount.met (fun _ => (rest.progress?_of_visited hvisited).trans seen) hrest⟩
  | @force name dependency d ts m first t known new drawn rest ih₁ ih₂ =>
    obtain ⟨-, rfl⟩ := Index.mem_declarations known
    obtain ⟨ms₁, hfirst⟩ := ih₁ hp
    have hvisited : first.memo.Visited d.name := drawn.visited_of_mem_tasks List.mem_cons_self
    have hdone : first.memo.progress? d.name = some .done :=
      drawn.done_of_visited hvisited (by rw [new]; exact (Option.some_ne_none _).symm)
    obtain ⟨ms₂, hrest⟩ := ih₂ (hfirst.chronicle.lead name d.name (first.memo.exitsOf d.name)
      (Or.inr ⟨hdone, rfl⟩))
    rw [List.append_assoc] at hrest
    exact ⟨_, hfirst.force ((rest.progress?_of_visited hvisited).trans hdone) hrest⟩

end Recount

/-! ## Diagrams -/

/-- What happened while a diagram was drawn: its lines and reports, its memory and the actions it
shows are those of the history, and each arrow of the walk was asked for by one of the actions. -/
structure HasHistory (config : Config) (actions : Actions) (c : Conversion)
    (history : List Moment) : Prop where
  memo_eq : c.memo = Memo.afterAll history
  lines_eq : ∃ used : List Style, c.canvas.lines
    = Canvas.blank.linesOfAll
        (startStrokes actions ++ history.flatMap (Moment.strokes config.styles))
      ++ used.map Line.ofStyle
  reports_eq : ∃ earlier : List Diagnostic, (∀ r ∈ earlier, (Event.report r).IsPreliminary) ∧
    c.reports = earlier ++ Canvas.blank.reportsOfAll
      (startStrokes actions ++ history.flatMap (Moment.strokes config.styles))
  declared : ∀ d, .draw d ∈ history → d ∈ actions.declarations
  /-- Each name that is visited is drawn once. -/
  drawn_perm : ((drawnIn history).map Declaration.name).Perm c.memo.visits.keys
  drawn_nodup : ((drawnIn history).map Declaration.name).Nodup
  asked : ∀ x ∈ history, ∀ task, x.task? = some task →
    ∃ d, .draw d ∈ history ∧ (task ∈ d.dependencyTasks ∨ task ∈ d.tasks)

theorem Drawn.hasHistory {config : Config} {actions : Actions} {c : Conversion} {t : Trip}
    (h : Drawn config actions c t) (hhalt : c.halt? = none) {history : List Moment}
    (hr : Recount actions config.styles (rootTasks actions) t [] history) :
    HasHistory config actions c history := by
  have hmemo : Memo.afterAll history = t.memo := hr.chronicle.afterAll_eq
  have hnames := hr.drawn.map Declaration.name
  refine ⟨by rw [h.memo_eq, hmemo], ?_, ?_,
    fun d hd => h.walks.drawn_declared d (hr.draw_mem_iff.mp hd), h.names_drawn.1 ▸ hnames,
    hnames.nodup_iff.mpr h.names_drawn.2, fun x hx task htask => ?_⟩
  · rw [hr.strokes_eq]
    exact h.lines_eq
  · rw [hr.strokes_eq]
    exact h.reports_eq hhalt
  · rcases hr.asked x hx task htask with hmem | ⟨d, hd, hmem⟩
    · obtain ⟨d, rfl⟩ := rootTasks_visit hmem
      exact absurd htask (x.task?_ne_visit d)
    · exact ⟨d, hr.draw_mem_iff.mpr hd, hmem⟩

/-- In a tree of distinct names what has been visited was drawn. -/
theorem HasHistory.draw_mem {config : Config} {actions : Actions} {c : Conversion}
    {history : List Moment} (h : HasHistory config actions c history) (hdist : actions.Distinct)
    {d : Declaration} (hd : d ∈ actions.declarations) (hvisited : c.memo.Visited d.name) :
    .draw d ∈ history := by
  obtain ⟨e, he, hname⟩ :=
    List.mem_map.mp (h.drawn_perm.mem_iff.mpr (Memo.mem_keys_visits.mpr hvisited))
  have hdraw := mem_drawnIn.mp he
  rwa [hdist.eq_of_name (h.declared e hdraw) hd hname] at hdraw

/-- Whatever an accepted definition holds, in the history of its diagram each action is drawn after
every declared action that it runs after is done: drawn, finished, its exit nodes kept as they are
at the end. The arrows from there to the action start at these exit nodes, or at the node of the
other action if there are none. The only exception is a cycle that is reported. -/
theorem convert_dependencies {config : Config} {log : Log} {definition : Value} {c : Conversion}
    (h : (convert config log definition).2 = .ok c) :
    ∃ (actions : Actions) (history : List Moment),
      Definition.tree? definition = some actions ∧ HasHistory config actions c history ∧
      ∀ before d, before ++ [.draw d] <+: history → ∀ k ∈ d.action.runAfter,
        ((Index.ofActions actions).1.lookup k).isSome →
        .dependencyCycle d.name k ∈ c.reports ∨
          (∃ exits, DoneIn actions before k exits ∧ c.memo.Ended k exits) ∧
          (∃ sources, .lead d.name k sources ∈ before) ∧
          ∀ sources, .lead d.name k sources ∈ history → sources = c.memo.exitsOf k := by
  obtain ⟨actions, t, htree, ht⟩ := convert_drawn h
  obtain ⟨history, hr⟩ := ht.walks.recount (chronicle_nil actions)
  have hchronicle : Chronicle actions history t.memo := hr.chronicle
  refine ⟨actions, history, htree, ht.hasHistory (convert_halt? h) hr, ?_⟩
  intro before d hprefix k hk hknown
  by_cases hreport : .dependencyCycle d.name k ∈ c.reports
  · exact Or.inl hreport
  · -- a cycle in the history would have been reported
    have hcycle : .cycle d.name k ∉ history := by
      intro hmem
      exact hreport (ht.mem_reports (convert_halt? h) (hr.stroke_mem hmem List.mem_cons_self))
    have hbefore : before <+: history := (List.prefix_append before _).trans hprefix
    obtain ⟨hlead, hdone⟩ := hchronicle.prepared before d hprefix k hk hknown
    obtain ⟨exits, hdone⟩ := hdone.resolve_left fun hmem => hcycle (hbefore.subset hmem)
    rw [ht.memo_eq]
    refine Or.inr ⟨⟨exits, hdone, hchronicle.kept before k exits hbefore hdone.ended⟩, hlead, ?_⟩
    intro sources hmem
    exact ((hchronicle.leads d.name k sources hmem).resolve_left hcycle).2

/-- In the sample the first action is drawn when the switch declared after it is done. -/
theorem convert_dependencies_sample :
    ∃ history, HasHistory {} sampleActions (Conversion.ofEntries {} sampleEntries) history ∧
      ∃ before d, d.name = "Notify" ∧ before ++ [.draw d] <+: history ∧
        DoneIn sampleActions before "Check" ["Send", "Check", "Ask"] := by
  obtain ⟨actions, history, htree, hhistory, hdone⟩ := convert_dependencies convert_sample.1
  rw [tree?_sample.1, Option.some.injEq] at htree
  subst htree
  have hvisited : "Notify" ∈ (Conversion.ofEntries {} sampleEntries).memo.visits.keys := by
    rw [Conversion.ofEntries, ofEntries_sample.1]
    decide +kernel
  obtain ⟨d, hdrawn, hname⟩ := List.mem_map.mp (hhistory.drawn_perm.mem_iff.mpr hvisited)
  have hdraw := mem_drawnIn.mp hdrawn
  have hd := hhistory.declared d hdraw
  have hfirst : d = sampleActions.declarations[0] :=
    distinct_sample.eq_of_name hd (List.getElem_mem _) hname
  obtain ⟨before, after, rfl⟩ := List.append_of_mem hdraw
  have hprefix : before ++ [.draw d] <+: before ++ .draw d :: after :=
    ⟨after, by rw [List.append_assoc, List.singleton_append]⟩
  have hreported : .dependencyCycle d.name "Check"
      ∉ (Conversion.ofEntries {} sampleEntries).reports := by
    rw [hname, Conversion.ofEntries, ofEntries_sample.1]
    decide +kernel
  obtain ⟨⟨exits, hcheck, hended⟩, -⟩ := (hdone before d hprefix "Check" (by rw [hfirst]; decide)
    (by decide)).resolve_left hreported
  have hexits : (Conversion.ofEntries {} sampleEntries).memo.exits.lookup "Check"
      = some ["Send", "Check", "Ask"] := by
    rw [Conversion.ofEntries, ofEntries_sample.1]
    decide +kernel
  rw [Memo.Ended, hexits, Option.some.injEq] at hended
  exact ⟨_, hhistory, before, d, hname, hprefix, hended.2 ▸ hcheck⟩

end Flowchart.Diagram
