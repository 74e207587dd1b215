import Flowchart.Proofs.Repetition

/-!
# The order in which a walk starts and finishes actions

A walk starts an action when it first comes to it, and finishes it after everything inside it. The
memory keeps both orders, one in the table of visits and one in the table of exit nodes, and both
tables only grow at their ends.

* `Memo.Sound` says that the two tables belong together. Every write keeps it so, and
  `Memo.Later.visits_prefix` and `Memo.Later.exits_prefix` compare the tables at two times;
* `Memo.Thorough`: an action is finished after it has been come to everything inside it;
* `Drawing` is what a walk does between the start and the end of an action, and
  `Walks.exists_drawing` finds the drawing of every declaration that a trip draws;
* `Walks.done_of_depend`: without a report of a cycle, what an action runs after is finished when
  the walk turns to the action itself.
-/

namespace Flowchart

namespace Diagram

/-! ## The tables of the memory -/

namespace Memo

/-- The tables of the memory belong together: each name is in a table once, and the actions with
exit nodes are those that are done. -/
structure Sound (m : Memo) : Prop where
  nodup_visits : m.visits.keys.Nodup
  nodup_exits : m.exits.keys.Nodup
  mem_exits : ∀ n, n ∈ m.exits.keys ↔ m.progress? n = some .done

theorem sound_empty : Memo.empty.Sound :=
  ⟨List.nodup_nil, List.nodup_nil, fun n => by simp [empty, Table.keys, progress?]⟩

variable {m m' : Memo} {k : String}

theorem Sound.not_mem_exits (h : m.Sound) (hk : m.progress? k ≠ some .done) :
    k ∉ m.exits.keys :=
  fun hmem => hk ((h.mem_exits k).mp hmem)

/-- A new action has no exit nodes, so finishing it adds them after all others. -/
theorem Sound.exits_finish (h : m.Sound) (hk : m.progress? k ≠ some .done) (xs : List String) :
    (m.finish k xs).exits = m.exits ++ [(k, xs)] := by
  show m.exits.put k xs = m.exits ++ [(k, xs)]
  exact Table.put_eq_append (h.not_mem_exits hk) xs

theorem Sound.keys_exits_finish (h : m.Sound) (hk : m.progress? k ≠ some .done)
    (xs : List String) : (m.finish k xs).exits.keys = m.exits.keys ++ [k] := by
  rw [h.exits_finish hk, Table.keys, List.map_append]
  rfl

theorem Sound.start (h : m.Sound) (hk : m.progress? k = none) : (m.start k).Sound := by
  refine ⟨?_, h.nodup_exits, fun n => ?_⟩
  · rw [keys_visits_start hk, ← List.concat_eq_append]
    exact List.Nodup.concat (fun hmem => mem_keys_visits.mp hmem hk) h.nodup_visits
  · show n ∈ m.exits.keys ↔ _
    rw [h.mem_exits, progress?_start]
    by_cases hn : n = k
    · simp [hn, hk]
    · rw [if_neg hn]

theorem Sound.finish (h : m.Sound) (hk : m.progress? k = some .underway) (xs : List String) :
    (m.finish k xs).Sound := by
  have hvisited : m.Visited k := by
    rw [Visited, hk]
    exact Option.some_ne_none _
  have hnew : m.progress? k ≠ some .done := by simp [hk]
  refine ⟨?_, ?_, fun n => ?_⟩
  · rw [keys_visits_finish xs hvisited]
    exact h.nodup_visits
  · rw [h.keys_exits_finish hnew, ← List.concat_eq_append]
    exact List.Nodup.concat (h.not_mem_exits hnew) h.nodup_exits
  · rw [h.keys_exits_finish hnew, List.mem_append, List.mem_singleton, h.mem_exits,
      progress?_finish]
    by_cases hn : n = k
    · simp [hn]
    · simp [hn]

/-! ## The tables at two times -/

theorem Step.sound (h : Step m m') (hm : m.Sound) : m'.Sound := by
  cases h with
  | start new => exact hm.start new
  | finish exits underway => exact hm.finish underway exits

theorem Step.visits_prefix (h : Step m m') : m.visits.keys <+: m'.visits.keys := by
  cases h with
  | start new =>
    rw [keys_visits_start new]
    exact List.prefix_append _ _
  | finish exits underway =>
    have hkeys := keys_visits_finish exits
      (show m.Visited _ by rw [Visited, underway]; exact Option.some_ne_none _)
    exact hkeys.symm ▸ List.prefix_refl _

theorem Step.exits_prefix (h : Step m m') (hm : m.Sound) : m.exits <+: m'.exits := by
  cases h with
  | start new => exact List.prefix_refl _
  | finish exits underway =>
    rw [hm.exits_finish (by simp [underway]) exits]
    exact List.prefix_append _ _

theorem Later.sound (h : m.Later m') (hm : m.Sound) : m'.Sound := by
  induction h with
  | refl => exact hm
  | tail _ hstep ih => exact hstep.sound ih

/-- The order of visits is continued. -/
theorem Later.visits_prefix (h : m.Later m') : m.visits.keys <+: m'.visits.keys := by
  induction h with
  | refl => exact List.prefix_refl _
  | tail _ hstep ih => exact ih.trans hstep.visits_prefix

/-- What is kept of the finished actions is continued as well. -/
theorem Later.exits_prefix (h : m.Later m') (hm : m.Sound) : m.exits <+: m'.exits := by
  induction h with
  | refl => exact List.prefix_refl _
  | tail hbefore hstep ih => exact ih.trans (hstep.exits_prefix (Later.sound hbefore hm))

theorem Later.keys_exits_prefix (h : m.Later m') (hm : m.Sound) :
    m.exits.keys <+: m'.exits.keys :=
  (h.exits_prefix hm).map Prod.fst

theorem Later.visited (h : m.Later m') {n : String} (hn : m.Visited n) : m'.Visited n :=
  mem_keys_visits.mp (h.visits_prefix.subset (mem_keys_visits.mpr hn))

end Memo

variable {actions : Actions} {styles : StyleTable} {ts : List Task} {m : Memo} {t : Trip}

/-- A trip writes to the memory, and does nothing else to it. -/
theorem Walks.later (h : Walks actions styles ts m t) : m.Later t.memo := by
  induction h with
  | nil m => exact .refl
  | wire _ ih | leave _ ih | again _ _ _ ih | unknown _ _ ih | met _ _ _ ih => exact ih
  | @fresh d ts m before inside t _ new dependencies groups _ ih₁ ih₂ ih₃ =>
    have hunderway : inside.memo.progress? d.name = some .underway := by
      rw [groups.underway_iff, dependencies.underway_iff, Memo.progress?_start, if_pos rfl]
    exact (((Relation.ReflTransGen.single (.start new)).trans ih₁).trans ih₂).trans
      ((Relation.ReflTransGen.single (.finish _ hunderway)).trans ih₃)
  | force _ _ _ _ ih₁ ih₂ => exact ih₁.trans ih₂

/-! ## Finished actions -/

/-- Everything directly inside the actions that are done has been visited. -/
def Memo.Thorough (m : Memo) (actions : Actions) : Prop :=
  ∀ d ∈ actions.declarations, m.progress? d.name = some .done → ∀ c ∈ d.children, m.Visited c.name

theorem Memo.thorough_empty (actions : Actions) : Memo.empty.Thorough actions :=
  fun _ _ hdone => by simp [Memo.progress?, Memo.empty] at hdone

theorem Memo.Thorough.start (h : m.Thorough actions) {k : String} : (m.start k).Thorough actions := by
  intro d hd hdone c hc
  rw [Memo.progress?_start] at hdone
  split at hdone
  · cases hdone
  · exact (h d hd hdone c hc).start k

/-- In a tree of distinct names the action that is finished is the one whose groups were visited. -/
theorem Memo.Thorough.finish (h : m.Thorough actions) (hdist : actions.Distinct) {d : Declaration}
    (hd : d ∈ actions.declarations) (hinside : ∀ c ∈ d.children, m.Visited c.name)
    (xs : List String) : (m.finish d.name xs).Thorough actions := by
  intro e he hdone c hc
  refine Memo.Visited.finish ?_ d.name xs
  rw [Memo.progress?_finish] at hdone
  by_cases hname : e.name = d.name
  · exact hinside c (hdist.eq_of_name he hd hname ▸ hc)
  · rw [if_neg hname] at hdone
    exact h e he hdone c hc

theorem Walks.thorough (h : Walks actions styles ts m t) (hdist : actions.Distinct)
    (hm : m.Thorough actions) : t.memo.Thorough actions := by
  induction h with
  | nil m => exact hm
  | wire _ ih | leave _ ih | again _ _ _ ih | unknown _ _ ih | met _ _ _ ih => exact ih hm
  | fresh declared new dependencies groups _ ih₁ ih₂ ih₃ =>
    refine ih₃ ((ih₂ (ih₁ hm.start)).finish hdist declared (fun c hc => ?_) _)
    exact groups.visited_of_mem_tasks (visit_mem_tasks.mpr hc)
  | force _ _ _ _ ih₁ ih₂ => exact ih₂ (ih₁ hm)

/-! ## Drawings -/

/-- What a walk does from the start of an action to its end. -/
structure Drawing (actions : Actions) (styles : StyleTable) (d : Declaration) where
  start : Memo
  before : Trip
  inside : Trip
  new : start.progress? d.name = none
  dependencies : Walks actions styles d.dependencyTasks (start.start d.name) before
  groups : Walks actions styles d.tasks before.memo inside

namespace Drawing

variable {d : Declaration} (g : Drawing actions styles d)

/-- The memory when the action has been finished. -/
def finish : Memo := g.inside.memo.finish d.name (d.exitsFrom g.inside.exits)

/-- While the groups inside the action are drawn, the action itself is being drawn, and so is
whatever was being drawn when it was started. -/
theorem underway_iff (n : String) :
    g.inside.memo.progress? n = some .underway ↔
      n = d.name ∨ g.start.progress? n = some .underway := by
  rw [g.groups.underway_iff, g.dependencies.underway_iff, Memo.progress?_start]
  by_cases hn : n = d.name
  · simp [hn]
  · simp [hn]

theorem underway : g.inside.memo.progress? d.name = some .underway :=
  (g.underway_iff d.name).mpr (Or.inl rfl)

theorem later_start : g.start.Later (g.start.start d.name) := .single (.start g.new)

theorem later_inside : (g.start.start d.name).Later g.inside.memo :=
  g.dependencies.later.trans g.groups.later

theorem later_finish : (g.start.start d.name).Later g.finish :=
  g.later_inside.tail (.finish _ g.underway)

theorem later : g.start.Later g.finish := g.later_start.trans g.later_finish

/-- The memory and the strokes of a drawing are on the way of a trip from the memory `m`. -/
structure On (m : Memo) (t : Trip) : Prop where
  later : m.Later g.start
  thorough : g.start.Thorough actions
  rest : g.finish.Later t.memo
  before_subset : g.before.strokes ⊆ t.strokes
  inside_subset : g.inside.strokes ⊆ t.strokes

variable {g}

/-- A drawing on the way of a part of a trip is on the way of the trip. -/
theorem On.of_part {t' : Trip} {m' : Memo} (h : g.On m t) (hm : m'.Later m)
    (ht : t.memo.Later t'.memo) (hstrokes : t.strokes ⊆ t'.strokes) : g.On m' t' :=
  ⟨hm.trans h.later, h.thorough, h.rest.trans ht, List.Subset.trans h.before_subset hstrokes,
    List.Subset.trans h.inside_subset hstrokes⟩

end Drawing

/-- Every declaration that a trip draws has its drawing on the way. -/
theorem Walks.exists_drawing (h : Walks actions styles ts m t) (hdist : actions.Distinct)
    (hm : m.Thorough actions) {d : Declaration} (hd : d ∈ t.drawn) :
    ∃ g : Drawing actions styles d, g.On m t := by
  induction h with
  | nil m => exact absurd hd List.not_mem_nil
  | wire _ ih | leave _ ih | again _ _ _ ih | unknown _ _ ih | met _ _ _ ih =>
    obtain ⟨g, hg⟩ := ih hm hd
    exact ⟨g, hg.of_part .refl .refl (List.subset_append_right _ _)⟩
  | @fresh e ts m before inside t declared new dependencies groups rest ih₁ ih₂ ih₃ =>
    let own : Drawing actions styles e := ⟨m, before, inside, new, dependencies, groups⟩
    have hbefore := dependencies.thorough hdist hm.start
    have hinside := groups.thorough hdist hbefore
    have hfinish : inside.memo.Later own.finish := .single (.finish _ own.underway)
    have hstrokes : inside.strokes ⊆ before.strokes
        ++ (e.action.opening styles e.name ++ inside.strokes ++ e.action.closing e.name)
        ++ [.report (.exitNodes e.name (e.exitsFrom inside.exits))] ++ t.strokes := by
      intro s hs
      simp [hs]
    simp only [Trip.drawn_prepend, List.cons_append, List.mem_cons, List.mem_append] at hd
    rcases hd with rfl | (hd | hd) | hd
    · exact ⟨own, .refl, hm, rest.later, by simp [own], hstrokes⟩
    · obtain ⟨g, hg⟩ := ih₁ hm.start hd
      exact ⟨g, hg.of_part own.later_start ((groups.later.trans hfinish).trans rest.later)
        (by simp)⟩
    · obtain ⟨g, hg⟩ := ih₂ hbefore hd
      exact ⟨g, hg.of_part (own.later_start.trans dependencies.later)
        (hfinish.trans rest.later) hstrokes⟩
    · obtain ⟨g, hg⟩ := ih₃ (hinside.finish hdist declared
        (fun c hc => groups.visited_of_mem_tasks (visit_mem_tasks.mpr hc)) _) hd
      exact ⟨g, hg.of_part own.later .refl (List.subset_append_right _ _)⟩
  | force _ _ drawn rest ih₁ ih₂ =>
    rcases List.mem_append.mp hd with hd | hd
    · obtain ⟨g, hg⟩ := ih₁ hm hd
      exact ⟨g, hg.of_part .refl rest.later (by simp)⟩
    · obtain ⟨g, hg⟩ := ih₂ (drawn.thorough hdist hm) hd
      exact ⟨g, hg.of_part drawn.later .refl (List.subset_append_right _ _)⟩

/-! ## Dependencies -/

/-- If a trip reports no cycle, the declared actions that it is asked to see to are done at its
end. -/
theorem Walks.done_of_depend (h : Walks actions styles ts m t)
    (hnone : ∀ n k, .report (.dependencyCycle n k) ∉ t.strokes) {name k : String}
    (hmem : .depend name k ∈ ts) (hk : ((Index.ofActions actions).1.lookup k).isSome) :
    t.memo.progress? k = some .done := by
  induction h with
  | nil m => exact absurd hmem List.not_mem_nil
  | wire _ ih | leave _ ih | again _ _ _ ih =>
    exact ih (fun n k hr => hnone n k (List.mem_append_right _ hr)) (by simpa using hmem)
  | fresh _ _ _ _ _ _ _ ih =>
    exact ih (fun n k hr => hnone n k (List.mem_append_right _ hr)) (by simpa using hmem)
  | unknown absent _ ih =>
    rcases List.mem_cons.mp hmem with heq | hmem
    · cases heq
      simp [absent] at hk
    · exact ih (fun n k hr => hnone n k (List.mem_append_right _ hr)) hmem
  | @met _ _ _ state _ m _ _ seen rest ih =>
    rcases List.mem_cons.mp hmem with heq | hmem
    · cases heq
      cases state with
      | underway => exact absurd (by simp [Progress.reports]) (hnone name k)
      | done =>
        have hvisited : m.Visited k := by
          rw [Memo.Visited, seen]
          exact Option.some_ne_none _
        exact (rest.progress?_of_visited hvisited).trans seen
    · exact ih (fun n k hr => hnone n k (List.mem_append_right _ hr)) hmem
  | @force _ _ e _ _ first _ known new drawn rest _ ih =>
    rcases List.mem_cons.mp hmem with heq | hmem
    · cases heq
      obtain ⟨-, rfl⟩ := Index.mem_declarations known
      have hvisited : first.memo.Visited e.name := drawn.visited_of_mem_tasks List.mem_cons_self
      rw [Trip.memo_prepend, rest.progress?_of_visited hvisited]
      exact drawn.done_of_visited hvisited (by simp [new])
    · exact ih (fun n k hr => hnone n k (List.mem_append_right _ hr)) hmem

end Diagram

end Flowchart
