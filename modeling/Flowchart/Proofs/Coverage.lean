import Flowchart.Proofs.Walks

/-!
# What a walk comes to

A trip draws each action it comes to for the first time, and leaves none half drawn.

* `Walks.keys_visits`: the names that are new in the memory after a trip are those of the
  declarations it has drawn;
* `Walks.underway_iff` and `Walks.done_of_visited`: what was being drawn before a trip is what is
  being drawn after it, so everything else that has been visited is finished;
* `Walks.visited_of_mem_tasks` and `Walks.visited_of_mem_children`: whatever a trip is asked to
  visit has been visited at its end, and so has everything inside the declarations it has drawn;
* `Walks.mem_drawn`: the walk over a tree of distinct names comes to all of it;
* `Trip.Answers` says that the strokes of a trip answer whatever is asked for on it, and how such
  trips are put together.
-/

namespace Flowchart.Diagram

/-! ## The members of a list of tasks -/

theorem visit_mem_memberTasks {w : Wiring} {isFirst : Bool} {ds : List Declaration}
    {d : Declaration} : .visit d ∈ memberTasks w isFirst ds ↔ d ∈ ds := by
  have hwire : ∀ (b : Bool) (n : String), Task.visit d ∉ w.tasks b n := by
    intro b n h
    rw [Wiring.tasks] at h
    split at h
    · split at h
      · simp at h
      · exact List.not_mem_nil h
    · exact List.not_mem_nil h
  induction ds generalizing isFirst with
  | nil => simp [memberTasks]
  | cons e rest ih =>
    have hrest := @ih false
    simp [memberTasks, hwire, hrest]

/-- The groups inside an action ask for visits of its members, and of nothing else. -/
theorem visit_mem_tasks {c d : Declaration} : .visit c ∈ d.tasks ↔ c ∈ d.children := by
  have hgroup : ∀ g : Group, .visit c ∈ g.tasks (d.path ++ [d.name]) (nodeId d.name)
      ↔ c ∈ g.actions.children (d.path ++ [d.name]) := by
    intro g
    cases hempty : g.actions.isEmpty with
    | false => simp only [Group.tasks, hempty, visit_mem_memberTasks]
    | true =>
      rw [List.isEmpty_iff] at hempty
      cases hreport : g.whenEmpty with
      | none => simp [Group.tasks, hempty, hreport, Actions.children]
      | some r => simp [Group.tasks, hempty, hreport, Actions.children]
  rw [Declaration.tasks, d.children_eq_groups, List.mem_flatMap, List.mem_flatMap]
  simp only [hgroup]

/-- Nor do they ask for the actions that others run after. -/
theorem depend_not_mem_tasks {d : Declaration} {name dependency : String} :
    .depend name dependency ∉ d.tasks := by
  have hmembers : ∀ (w : Wiring) (isFirst : Bool) (ds : List Declaration),
      Task.depend name dependency ∉ memberTasks w isFirst ds := by
    intro w isFirst ds
    induction ds generalizing isFirst with
    | nil => exact List.not_mem_nil
    | cons e rest ih =>
      rw [memberTasks, Wiring.tasks]
      split
      · split
        · simp [ih]
        · simp [ih]
      · simp [ih]
  rw [Declaration.tasks, List.mem_flatMap]
  rintro ⟨g, -, hg⟩
  rw [Group.tasks] at hg
  split at hg
  · exact hmembers _ _ _ hg
  · simp at hg
  · exact List.not_mem_nil hg

variable {actions : Actions} {styles : StyleTable} {ts : List Task} {m : Memo} {t : Trip}

/-! ## New names -/

theorem Walks.drawn_declared (h : Walks actions styles ts m t) :
    ∀ d ∈ t.drawn, d ∈ actions.declarations := by
  induction h with
  | nil m => simp
  | wire _ ih | leave _ ih | again _ _ _ ih | unknown _ _ ih | met _ _ _ ih => simpa using ih
  | fresh declared _ _ _ _ ih₁ ih₂ ih₃ =>
    intro d hd
    simp only [Trip.drawn_prepend, List.cons_append, List.mem_cons, List.mem_append] at hd
    rcases hd with rfl | (hd | hd) | hd
    · exact declared
    · exact ih₁ d hd
    · exact ih₂ d hd
    · exact ih₃ d hd
  | force _ _ _ _ ih₁ ih₂ =>
    intro d hd
    rcases List.mem_append.mp hd with hd | hd
    · exact ih₁ d hd
    · exact ih₂ d hd

/-- The order of visits grows by the names of the declarations drawn. -/
theorem Walks.keys_visits (h : Walks actions styles ts m t) :
    t.memo.visits.keys = m.visits.keys ++ t.drawn.map Declaration.name := by
  induction h with
  | nil m => simp
  | wire _ ih | leave _ ih | again _ _ _ ih | unknown _ _ ih | met _ _ _ ih => simpa using ih
  | @fresh d ts m before inside t _ new dependencies groups _ ih₁ ih₂ ih₃ =>
    have hseen : inside.memo.Visited d.name :=
      groups.visited_mono (dependencies.visited_mono Memo.visited_start)
    rw [Trip.memo_prepend, ih₃, Memo.keys_visits_finish _ hseen, ih₂, ih₁,
      Memo.keys_visits_start new]
    simp
  | force _ _ _ _ ih₁ ih₂ =>
    rw [Trip.memo_prepend, ih₂, ih₁]
    simp

/-- No name is visited twice. -/
theorem Walks.nodup_visits (h : Walks actions styles ts m t) (hm : m.visits.keys.Nodup) :
    t.memo.visits.keys.Nodup := by
  induction h with
  | nil m => exact hm
  | wire _ ih | leave _ ih | again _ _ _ ih | unknown _ _ ih | met _ _ _ ih => exact ih hm
  | @fresh d ts m before inside t _ new dependencies groups _ ih₁ ih₂ ih₃ =>
    have hstart : (m.start d.name).visits.keys.Nodup := by
      rw [Memo.keys_visits_start new]
      refine List.nodup_append.mpr ⟨hm, List.nodup_singleton d.name, ?_⟩
      rintro x hx y hy rfl
      rw [List.mem_singleton.mp hy, Memo.mem_keys_visits] at hx
      exact hx new
    have hseen : inside.memo.Visited d.name :=
      groups.visited_mono (dependencies.visited_mono Memo.visited_start)
    refine ih₃ ?_
    rw [Memo.keys_visits_finish _ hseen]
    exact ih₂ (ih₁ hstart)
  | force _ _ _ _ ih₁ ih₂ => exact ih₂ (ih₁ hm)

/-- A trip visits the actions that were visited before it and those that it draws. -/
theorem Walks.visited_iff (h : Walks actions styles ts m t) {n : String} :
    t.memo.Visited n ↔ m.Visited n ∨ ∃ d ∈ t.drawn, d.name = n := by
  rw [← Memo.mem_keys_visits, h.keys_visits, List.mem_append, Memo.mem_keys_visits, List.mem_map]

/-- What is being drawn after a trip is what was being drawn before it. -/
theorem Walks.underway_iff (h : Walks actions styles ts m t) (n : String) :
    t.memo.progress? n = some .underway ↔ m.progress? n = some .underway := by
  induction h generalizing n with
  | nil m => exact Iff.rfl
  | wire _ ih | leave _ ih | again _ _ _ ih | unknown _ _ ih | met _ _ _ ih => exact ih n
  | @fresh d ts m before inside t _ new _ _ _ ih₁ ih₂ ih₃ =>
    exact (ih₃ n).trans (Memo.underway_finish_iff _ new (fun k => (ih₂ k).trans (ih₁ k)) n)
  | force _ _ _ _ ih₁ ih₂ => exact (ih₂ n).trans (ih₁ n)

/-- Whatever has been visited at the end of a trip is finished, unless it was being drawn before. -/
theorem Walks.done_of_visited (h : Walks actions styles ts m t) {n : String}
    (hv : t.memo.Visited n) (hm : m.progress? n ≠ some .underway) :
    t.memo.progress? n = some .done :=
  hv.done fun hu => hm ((h.underway_iff n).mp hu)

/-! ## Coverage -/

/-- Whatever a trip is asked to visit has been visited at its end. -/
theorem Walks.visited_of_mem_tasks (h : Walks actions styles ts m t) {d : Declaration}
    (hd : .visit d ∈ ts) : t.memo.Visited d.name := by
  induction h with
  | nil m => exact absurd hd List.not_mem_nil
  | wire _ ih | leave _ ih | unknown _ _ ih | met _ _ _ ih | force _ _ _ _ _ ih =>
    exact ih (by simpa using hd)
  | again _ seen rest ih =>
    rcases List.mem_cons.mp hd with heq | hd
    · cases heq
      exact rest.visited_mono seen
    · exact ih hd
  | fresh _ _ _ _ rest _ _ ih =>
    rcases List.mem_cons.mp hd with heq | hd
    · cases heq
      exact rest.visited_mono Memo.visited_finish
    · exact ih hd

/-- Everything inside the declarations drawn has been visited as well. -/
theorem Walks.visited_of_mem_children (h : Walks actions styles ts m t) {d c : Declaration}
    (hd : d ∈ t.drawn) (hc : c ∈ d.children) : t.memo.Visited c.name := by
  induction h with
  | nil m => exact absurd hd List.not_mem_nil
  | wire _ ih | leave _ ih | again _ _ _ ih | unknown _ _ ih | met _ _ _ ih => exact ih hd
  | @fresh e ts m before inside t _ _ _ groups rest ih₁ ih₂ ih₃ =>
    -- what is inside has been visited when the action is finished, and stays so
    have hkeep : ∀ n, inside.memo.Visited n → t.memo.Visited n :=
      fun n hn => rest.visited_mono (hn.finish _ _)
    simp only [Trip.drawn_prepend, List.cons_append, List.mem_cons, List.mem_append] at hd
    rcases hd with rfl | (hd | hd) | hd
    · exact hkeep _ (groups.visited_of_mem_tasks (visit_mem_tasks.mpr hc))
    · exact hkeep _ (groups.visited_mono (ih₁ hd))
    · exact hkeep _ (ih₂ hd)
    · exact ih₃ hd
  | force _ _ _ rest ih₁ ih₂ =>
    rcases List.mem_append.mp hd with hd | hd
    · exact rest.visited_mono (ih₁ hd)
    · exact ih₂ hd

/-- The walk over a tree of distinct names draws all of its declarations. -/
theorem Walks.mem_drawn (hd : actions.Distinct) {w : Wiring}
    (h : Walks actions styles (memberTasks w true (actions.children [])) .empty t) :
    ∀ d ∈ actions.declarations, d ∈ t.drawn := by
  -- here the names have to differ: a name may have been visited for another declaration
  have hdrawn : ∀ d ∈ actions.declarations, t.memo.Visited d.name → d ∈ t.drawn := by
    intro d hmem hv
    rcases h.visited_iff.mp hv with hempty | ⟨e, he, hname⟩
    · exact absurd rfl hempty
    · rwa [← hd.eq_of_name (h.drawn_declared e he) hmem hname]
  apply declarations_induction
  · intro d hroot
    exact hdrawn d (root_mem_declarations hroot)
      (h.visited_of_mem_tasks (visit_mem_memberTasks.mpr hroot))
  · intro d hmem hd c hc
    exact hdrawn c (children_mem_declarations hmem hc) (h.visited_of_mem_children hd hc)

/-! ## Answers -/

/-- A way of answering tasks by strokes that further strokes do not spoil. -/
def Lasting (answered : List Stroke → Task → Prop) : Prop :=
  ∀ ss ss' task, ss ⊆ ss' → answered ss task → answered ss' task

/-- What the tasks of a trip and the actions drawn on it ask for is answered by its strokes. -/
structure Trip.Answers (answered : List Stroke → Task → Prop) (ts : List Task) (t : Trip) :
    Prop where
  tasks : ∀ task ∈ ts, answered t.strokes task
  drawn : ∀ d ∈ t.drawn, ∀ task, task ∈ d.dependencyTasks ∨ task ∈ d.tasks →
    answered t.strokes task

namespace Trip.Answers

variable {answered : List Stroke → Task → Prop}

theorem nil (answered : List Stroke → Task → Prop) (m : Memo) :
    Trip.Answers answered [] ⟨[], [], [], m⟩ :=
  ⟨fun _ h => absurd h List.not_mem_nil, fun _ h => absurd h List.not_mem_nil⟩

/-- More may be drawn before a trip. -/
theorem cons (h : t.Answers answered ts) (hl : Lasting answered) {task : Task}
    {xs : List String} {ss : List Stroke} {ds : List Declaration} (htask : answered ss task)
    (hds : ∀ d ∈ ds, ∀ task, task ∈ d.dependencyTasks ∨ task ∈ d.tasks → answered ss task) :
    (t.prepend xs ss ds).Answers answered (task :: ts) := by
  have hleft : ss ⊆ (t.prepend xs ss ds).strokes := List.subset_append_left _ _
  have hright : t.strokes ⊆ (t.prepend xs ss ds).strokes := List.subset_append_right _ _
  constructor
  · intro other hother
    rcases List.mem_cons.mp hother with rfl | hother
    · exact hl _ _ _ hleft htask
    · exact hl _ _ _ hright (h.tasks other hother)
  · intro d hd other hother
    rcases List.mem_append.mp hd with hd | hd
    · exact hl _ _ _ hleft (hds d hd other hother)
    · exact hl _ _ _ hright (h.drawn d hd other hother)

/-- What an action runs after and what is inside it may be drawn on the way to the action. -/
theorem fresh {d : Declaration} {before inside : Trip} {xs : List String} {ss : List Stroke}
    (h : t.Answers answered ts) (hl : Lasting answered)
    (hbefore : before.Answers answered d.dependencyTasks)
    (hinside : inside.Answers answered d.tasks) (hleft : before.strokes ⊆ ss)
    (hright : inside.strokes ⊆ ss) (hvisit : answered ss (.visit d)) :
    (t.prepend xs ss (d :: (before.drawn ++ inside.drawn))).Answers answered (.visit d :: ts) := by
  refine h.cons hl hvisit fun e he task htask => ?_
  rcases List.mem_cons.mp he with rfl | he
  · exact htask.elim (fun htask => hl _ _ _ hleft (hbefore.tasks task htask))
      fun htask => hl _ _ _ hright (hinside.tasks task htask)
  · exact (List.mem_append.mp he).elim (fun he => hl _ _ _ hleft (hbefore.drawn e he task htask))
      fun he => hl _ _ _ hright (hinside.drawn e he task htask)

end Trip.Answers

end Flowchart.Diagram
