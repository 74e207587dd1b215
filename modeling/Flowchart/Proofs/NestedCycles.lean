import Flowchart.Proofs.Cycles
import Flowchart.Proofs.Order

/-!
# Cycles through containment

An action that runs after one that encloses it waits for itself. In a tree of distinct names the
walk reports such a cycle, unless it has come to the inside of the outer action before the outer
action itself: then the outer action is drawn while the inner one is being drawn, and the walk
passes the inner one as if it were done.

* `Memo.Spans` says that one action was being drawn all the time that another one was;
* `Drawing.On.mem_of_prefix`: without a report, an action is finished after the declared actions
  that it runs after. So what runs after `d` is not done while the groups inside `d` are drawn, and
  `Drawing.done_or_underway` finds the action on the way to it that is being drawn instead;
* `Actions.Exposes` is a tree in which an action outside of `d` runs after one inside it. Nothing
  else leads inside `d` before `d` is come to, by `Walks.precedes`;
* `convert_nested_cycles` says what this means for the log of a conversion.
-/

namespace Flowchart

/-- An action outside of `d` runs after one inside it. -/
def Actions.Exposes (actions : Actions) (d : Declaration) : Prop :=
  ∃ x ∈ actions.declarations, ¬ d.Holds x ∧ ∃ b, d.Encloses b ∧ b.name ∈ x.action.runAfter

namespace Diagram

/-- The first action was being drawn all the time that the second one was: it was started before it
and finished after it. -/
def Memo.Spans (m : Memo) (outer inner : String) : Prop :=
  [outer, inner].Sublist m.visits.keys ∧ [inner, outer].Sublist m.exits.keys

variable {actions : Actions} {styles : StyleTable} {ts : List Task} {m : Memo} {t : Trip}
  {d : Declaration}

/-! ## While an action is drawn -/

namespace Drawing

variable {g : Drawing actions styles d}

theorem On.sound_inside (h : g.On m t) (hm : m.Sound) : g.inside.memo.Sound :=
  g.later_inside.sound ((h.later.sound hm).start g.new)

/-- The action is finished after everything that is done while the groups inside it are drawn. -/
theorem On.exits_prefix (h : g.On m t) (hm : m.Sound) :
    g.inside.memo.exits.keys ++ [d.name] <+: t.memo.exits.keys := by
  have hinside := h.sound_inside hm
  have hfinish : g.finish.exits.keys = g.inside.memo.exits.keys ++ [d.name] :=
    hinside.keys_exits_finish (by simp [g.underway]) _
  rw [← hfinish]
  exact h.rest.keys_exits_prefix (g.later.sound (h.later.sound hm))

/-- It is started after everything that has been visited before. -/
theorem On.visits_prefix (h : g.On m t) :
    g.start.visits.keys ++ [d.name] <+: t.memo.visits.keys := by
  rw [← Memo.keys_visits_start g.new]
  exact g.later_finish.visits_prefix.trans h.rest.visits_prefix

/-- Without a report of a cycle, whenever the action is done so is what it runs after. -/
theorem On.mem_of_prefix (h : g.On m t) (hm : m.Sound)
    (hnone : ∀ n k, .report (.dependencyCycle n k) ∉ t.strokes) {p : List String}
    (hp : p <+: t.memo.exits.keys) (hd : d.name ∈ p) {k : String} (hk : k ∈ d.action.runAfter)
    (hknown : ((Index.ofActions actions).1.lookup k).isSome) : k ∈ p := by
  have hinside := h.sound_inside hm
  -- when the groups inside the action have been drawn, what it runs after is done and it is not
  have hnot : d.name ∉ g.inside.memo.exits.keys := hinside.not_mem_exits (by simp [g.underway])
  have hmem : k ∈ g.inside.memo.exits.keys := by
    have hdone := g.dependencies.done_of_depend
      (fun n k hr => hnone n k (h.before_subset hr)) (List.mem_map_of_mem hk) hknown
    rw [hinside.mem_exits, g.groups.progress?_of_visited, hdone]
    rw [Memo.Visited, hdone]
    exact Option.some_ne_none _
  rcases List.prefix_or_prefix_of_prefix hp ((List.prefix_append _ _).trans (h.exits_prefix hm))
    with hbefore | hafter
  · exact absurd (hbefore.subset hd) hnot
  · exact hafter.subset hmem

/-- Of the actions that enclose `e` inside `d`, and `e` itself, one was being drawn before `d` was
started, or else `e` is done when the groups inside `d` have been drawn. -/
theorem done_or_underway (hdist : actions.Distinct) (hd : d ∈ actions.declarations)
    (hstart : g.start.Thorough actions) {e : Declaration} (h : d.Encloses e) :
    g.inside.memo.progress? e.name = some .done ∨
      ∃ b, d.Encloses b ∧ b.Holds e ∧ g.start.progress? b.name = some .underway := by
  have hthorough := g.groups.thorough hdist (g.dependencies.thorough hdist hstart.start)
  have hcases : ∀ c : Declaration, d.Encloses c → g.inside.memo.Visited c.name →
      g.inside.memo.progress? c.name = some .done ∨
        ∃ b, d.Encloses b ∧ b.Holds c ∧ g.start.progress? b.name = some .underway := by
    intro c hc hvisited
    by_cases hu : g.inside.memo.progress? c.name = some .underway
    · refine Or.inr ⟨c, hc, .refl, ((g.underway_iff c.name).mp hu).resolve_left fun hname => ?_⟩
      exact hc.ne (hdist.eq_of_name (hc.holds.mem_declarations hd) hd hname)
    · exact Or.inl (hvisited.done hu)
  induction h with
  | single hc =>
    exact hcases _ (.single hc) (g.groups.visited_of_mem_tasks (visit_mem_tasks.mpr hc))
  | @tail y c hy hc ih =>
    have hmem : y ∈ actions.declarations := Declaration.Holds.mem_declarations hy.to_reflTransGen hd
    rcases ih with hdone | ⟨b, hb, hholds, hu⟩
    · exact hcases c (hy.tail hc) (hthorough y hmem hdone c hc)
    · exact Or.inr ⟨b, hb, hholds.tail hc, hu⟩

/-- What was being drawn when the action was started is finished after it. -/
theorem On.spans (h : g.On m t) (hm : m.Sound) {n : String}
    (hu : g.start.progress? n = some .underway) (hdone : t.memo.progress? n = some .done) :
    t.memo.Spans n d.name := by
  have hend : t.memo.Sound := h.rest.sound (g.later.sound (h.later.sound hm))
  have hvisited : g.start.Visited n := by
    rw [Memo.Visited, hu]
    exact Option.some_ne_none _
  have hne : n ≠ d.name := by
    rintro rfl
    exact hvisited g.new
  constructor
  · refine List.Sublist.trans ?_ h.visits_prefix.sublist
    exact (List.singleton_sublist.mpr (Memo.mem_keys_visits.mpr hvisited)).append
      (List.Sublist.refl [d.name])
  · obtain ⟨rest, hrest⟩ := h.exits_prefix hm
    have hinside : n ∉ g.inside.memo.exits.keys :=
      (h.sound_inside hm).not_mem_exits (by simp [(g.underway_iff n).mpr (Or.inr hu)])
    have hmem := (hend.mem_exits n).mpr hdone
    rw [← hrest] at hmem ⊢
    simp only [List.mem_append, List.mem_singleton, hinside, hne, false_or] at hmem
    show ([d.name] ++ [n]).Sublist _
    exact (List.sublist_append_right _ _).append (List.singleton_sublist.mpr hmem)

end Drawing

/-- Without a report, what runs after an action through others is not done before the action. -/
theorem Walks.mem_of_prefix (h : Walks actions styles ts m t) (hdist : actions.Distinct)
    (hm : m.Sound) (hthorough : m.Thorough actions)
    (hnone : ∀ n k, .report (.dependencyCycle n k) ∉ t.strokes)
    (hall : ∀ d ∈ actions.declarations, d ∈ t.drawn) (hd : d ∈ actions.declarations)
    {p : List String} (hp : p <+: t.memo.exits.keys) {n : String}
    (hafter : Relation.TransGen actions.RunsAfter n d.name) (hn : n ∈ p) : d.name ∈ p := by
  have hstep : ∀ n k, actions.RunsAfter n k → ((Index.ofActions actions).1.lookup k).isSome →
      n ∈ p → k ∈ p := by
    rintro n k ⟨x, hx, rfl, hk⟩ hknown hn
    obtain ⟨g, hg⟩ := h.exists_drawing hdist hthorough (hall x hx)
    exact hg.mem_of_prefix hm hnone hp hn hk hknown
  induction hafter using Relation.TransGen.head_induction_on with
  | single hafter => exact hstep _ _ hafter (Index.lookup_isSome hd) hn
  | head hafter hrest ih =>
    -- whatever runs after something is declared
    have hknown : ∀ k, Relation.TransGen actions.RunsAfter k d.name →
        ((Index.ofActions actions).1.lookup k).isSome := by
      intro k hk
      obtain ⟨c, ⟨x, hx, rfl, -⟩, -⟩ := Relation.TransGen.head'_iff.mp hk
      exact Index.lookup_isSome hx
    exact ih (hstep _ _ hafter (hknown _ hrest) hn)

/-! ## Before an action is drawn -/

/-- Among these names, those of the actions inside `d` come after that of `d`. -/
def Precedes (d : Declaration) (names : List String) : Prop :=
  ∀ b, d.Encloses b → b.name ∈ names → [d.name, b.name].Sublist names

/-- Tasks that lead inside `d` only if `d` has been come to. -/
def Guarded (d : Declaration) (m : Memo) (ts : List Task) : Prop :=
  ∀ task ∈ ts, ∀ b, d.Encloses b → task.target? = some b.name → m.Visited d.name

theorem Precedes.start {k : String} (h : Precedes d m.visits.keys) (hnew : m.progress? k = none)
    (hk : ∀ b, d.Encloses b → k = b.name → m.Visited d.name) :
    Precedes d (m.start k).visits.keys := by
  intro b hb hmem
  rw [Memo.keys_visits_start hnew] at hmem ⊢
  rcases List.mem_append.mp hmem with hmem | hmem
  · exact (h b hb hmem).trans (List.sublist_append_left _ _)
  · have hname := (List.mem_singleton.mp hmem).symm
    rw [hname]
    exact (List.singleton_sublist.mpr (Memo.mem_keys_visits.mpr (hk b hb hname))).append
      (List.Sublist.refl [b.name])

namespace Guarded

theorem tail {task : Task} (h : Guarded d m (task :: ts)) : Guarded d m ts :=
  fun other hother => h other (List.mem_cons_of_mem _ hother)

theorem mono {m' : Memo} (h : Guarded d m ts) (hm : ∀ n, m.Visited n → m'.Visited n) :
    Guarded d m' ts :=
  fun task htask b hb htarget => hm _ (h task htask b hb htarget)

variable {e : Declaration}

/-- An action inside `d` is visited after `d` is started, and `d` itself is being started. -/
theorem visited_start (h : Guarded d m (.visit e :: ts)) (he : d.Holds e) :
    (m.start e.name).Visited d.name := by
  rcases Declaration.holds_iff.mp he with rfl | hinside
  · exact Memo.visited_start
  · exact (h (.visit e) List.mem_cons_self e hinside rfl).start e.name

/-- Only actions that `d` holds run after those inside it. -/
theorem dependencies (h : Guarded d m (.visit e :: ts)) (he : e ∈ actions.declarations)
    (hclosed : ¬ actions.Exposes d) : Guarded d (m.start e.name) e.dependencyTasks := by
  intro task htask b hb htarget
  obtain ⟨k, hk, rfl⟩ := List.mem_map.mp htask
  rw [Task.target?, Option.some.injEq] at htarget
  refine h.visited_start ?_
  by_contra houtside
  exact hclosed ⟨e, he, houtside, b, hb, htarget ▸ hk⟩

theorem groups {before : Trip} (h : Guarded d m (.visit e :: ts)) (hdist : actions.Distinct)
    (hd : d ∈ actions.declarations) (he : e ∈ actions.declarations)
    (dependencies : Walks actions styles e.dependencyTasks (m.start e.name) before) :
    Guarded d before.memo e.tasks := by
  intro task htask b hb htarget
  cases task with
  | wire source target text note => cases htarget
  | leave id r => cases htarget
  | depend name dependency => exact absurd htask depend_not_mem_tasks
  | visit c =>
    have hc := visit_mem_tasks.mp htask
    rw [Task.target?, Option.some.injEq] at htarget
    have heq : c = b := hdist.eq_of_name (children_mem_declarations he hc)
      (hb.holds.mem_declarations hd) htarget
    exact dependencies.visited_mono
      (h.visited_start ((heq ▸ hb).holds_parent hdist hd he hc))

end Guarded

/-- Visits of top-level actions lead inside no other action. -/
theorem guarded_rootTasks (m : Memo) (hdist : actions.Distinct) (hd : d ∈ actions.declarations) :
    Guarded d m (rootTasks actions) := by
  intro task htask b hb htarget
  obtain ⟨r, rfl⟩ := rootTasks_visit htask
  have hroot : r ∈ actions.children [] := visit_mem_memberTasks.mp htask
  rw [Task.target?, Option.some.injEq] at htarget
  have heq : r = b := hdist.eq_of_name (root_mem_declarations hroot)
    (hb.holds.mem_declarations hd) htarget
  have hlt := hb.length_path_lt
  rw [← heq, path_of_root hroot] at hlt
  exact absurd hlt (Nat.not_lt_zero _)

/-- If no action outside of `d` runs after one inside it, no walk comes to the inside of `d` before
it comes to `d`. -/
theorem Walks.precedes (h : Walks actions styles ts m t) (hdist : actions.Distinct)
    (hd : d ∈ actions.declarations) (hclosed : ¬ actions.Exposes d)
    (hm : Precedes d m.visits.keys) (hts : Guarded d m ts) : Precedes d t.memo.visits.keys := by
  induction h with
  | nil m => exact hm
  | wire _ ih | leave _ ih | again _ _ _ ih | unknown _ _ ih | met _ _ _ ih => exact ih hm hts.tail
  | @fresh e ts m before inside t declared new dependencies groups rest ih₁ ih₂ ih₃ =>
    have hstart := hm.start new fun b hb hname =>
      hts (.visit e) List.mem_cons_self b hb (congrArg some hname)
    have hinside := ih₂ (ih₁ hstart (hts.dependencies declared hclosed))
      (hts.groups hdist hd declared dependencies)
    let own : Drawing actions styles e := ⟨m, before, inside, new, dependencies, groups⟩
    refine ih₃ ?_ (hts.tail.mono fun n hn => own.later.visited hn)
    rw [Memo.keys_visits_finish _ (groups.visited_mono
      (dependencies.visited_mono Memo.visited_start))]
    exact hinside
  | force known _ drawn _ ih₁ ih₂ =>
    obtain ⟨-, rfl⟩ := Index.mem_declarations known
    have hfirst := ih₁ hm fun task htask b hb htarget => by
      rw [List.mem_singleton.mp htask] at htarget
      exact hts _ List.mem_cons_self b hb htarget
    exact ih₂ hfirst (hts.tail.mono fun n hn => drawn.visited_mono hn)

/-! ## Diagrams -/

/-- In a list without repetitions two elements stand in one order only. -/
theorem eq_of_sublist_swap {xs : List String} (h : xs.Nodup) {a b : String}
    (hab : [a, b].Sublist xs) (hba : [b, a].Sublist xs) : a = b := by
  induction xs with
  | nil => cases hab
  | cons x rest ih =>
    rw [List.nodup_cons] at h
    cases hab with
    | cons _ hab =>
      cases hba with
      | cons _ hba => exact ih h.2 hab hba
      | cons_cons _ _ => exact absurd (hab.subset (by simp)) h.1
    | cons_cons _ _ =>
      cases hba with
      | cons _ hba => exact absurd (hba.subset (by simp)) h.1
      | cons_cons _ _ => rfl

/-- In a tree of distinct names, if an action runs after one that encloses it and the conversion
comes to its end without having met a cycle, then the outer action was drawn while something inside
it was being drawn, and some action outside of it asked for that. -/
theorem Drawn.spans {config : Config} {c : Conversion} (h : Drawn config actions c t)
    (hdist : actions.Distinct) (hhalt : c.halt? = none)
    (hnone : ∀ n k, .dependencyCycle n k ∉ c.reports) {e : Declaration}
    (hd : d ∈ actions.declarations) (hin : d.Encloses e)
    (hafter : Relation.TransGen actions.RunsAfter e.name d.name) :
    (∃ b, d.Encloses b ∧ b.Holds e ∧ c.memo.Spans b.name d.name) ∧ actions.Exposes d := by
  have hsilent : ∀ n k, .report (.dependencyCycle n k) ∉ t.strokes :=
    fun n k hr => hnone n k (h.mem_reports hhalt hr)
  have hthorough := Memo.thorough_empty actions
  obtain ⟨g, hg⟩ := h.walks.exists_drawing hdist hthorough (h.walks.mem_drawn hdist d hd)
  -- while the groups inside the outer action are drawn it is not done, so the inner one is not
  have hnot : g.inside.memo.progress? e.name ≠ some .done := by
    intro hdone
    have hinside := hg.sound_inside Memo.sound_empty
    have hmem := h.walks.mem_of_prefix hdist Memo.sound_empty hthorough hsilent
      (h.walks.mem_drawn hdist) hd
      ((List.prefix_append _ _).trans (hg.exits_prefix Memo.sound_empty)) hafter
      ((hinside.mem_exits e.name).mpr hdone)
    exact hinside.not_mem_exits (by simp [g.underway]) hmem
  obtain ⟨b, hb, hholds, hu⟩ :=
    (g.done_or_underway hdist hd hg.thorough hin).resolve_left hnot
  have hdone := h.done hdist b (hb.holds.mem_declarations hd)
  rw [h.memo_eq] at hdone
  have hspans := hg.spans Memo.sound_empty hu hdone
  refine ⟨⟨b, hb, hholds, h.memo_eq ▸ hspans⟩, ?_⟩
  by_contra hclosed
  -- otherwise the outer action would have been started before everything inside it
  have hprecedes := h.walks.precedes hdist hd hclosed
    (fun _ _ hmem => absurd hmem List.not_mem_nil) (guarded_rootTasks .empty hdist hd)
  have hmem := hspans.1.subset List.mem_cons_self
  have hnodup := (h.walks.later.sound Memo.sound_empty).nodup_visits
  exact hb.ne (hdist.eq_of_name (hb.holds.mem_declarations hd) hd
    (eq_of_sublist_swap hnodup hspans.1 (hprecedes b hb hmem)))

/-- In a tree of distinct names, if an action runs after one that encloses it, directly or through
others, then a conversion records a cycle, unless the log ignores cycles or the work has halted at a
number. The exception is an outer action that is drawn while something inside it on the way to the
inner action is being drawn. For that an action outside of it must run after one inside it. -/
theorem convert_nested_cycles {config : Config} {log : Log} {definition : Value} {actions : Actions}
    (htree : Definition.tree? definition = some actions) (hdist : actions.Distinct)
    (hlog : "W_DEPENDENCY_CYCLE" ∉ log.ignored) :
    ∃ recorded, (convert config log definition).1.entries = log.entries ++ recorded ∧
      ∀ d e, d ∈ actions.declarations → d.Encloses e →
        Relation.TransGen actions.RunsAfter e.name d.name →
        (∃ r, (convert config log definition).2 = .error (.limit r)) ∨
          (∃ n k, .dependencyCycle n k ∈ recorded) ∨
          ∃ c, (convert config log definition).2 = .ok c ∧
            (∃ b, d.Encloses b ∧ b.Holds e ∧ c.memo.Spans b.name d.name) ∧ actions.Exposes d := by
  obtain ⟨c, t, ht, hconvert⟩ := convert_of_tree config log htree
  rw [hconvert]
  refine ⟨c.reports.filter log.accepts, rfl, fun d e hd hin hafter => ?_⟩
  cases hhalt : c.halt? with
  | some r => exact Or.inl ⟨r, rfl⟩
  | none =>
    refine Or.inr ?_
    by_cases hcycle : ∃ n k, .dependencyCycle n k ∈ c.reports
    · obtain ⟨n, k, hmem⟩ := hcycle
      have haccepts : log.accepts (.dependencyCycle n k) := by
        simpa [Log.accepts, Diagnostic.code] using hlog
      exact Or.inl ⟨n, k, List.mem_filter.mpr ⟨hmem, haccepts⟩⟩
    · have hnone : ∀ n k, .dependencyCycle n k ∉ c.reports := fun n k hmem => hcycle ⟨n, k, hmem⟩
      exact Or.inr ⟨c, rfl, ht.spans hdist hhalt hnone hd hin hafter⟩

/-- A tree in which an action runs after the box around it. -/
def innerActions : Actions :=
  [("Depot", .scope .scope [] [("Pack", .simple "Compose" ["Depot"] [])])]

/-- Nothing outside of the box runs after the action inside, and the cycle is recorded. -/
theorem convert_nested_cycles_inner : ∃ n k, .dependencyCycle n k
    ∈ (convert {} ⟨[], []⟩ (definitionOf innerActions.entries)).1.entries := by
  have hreadable : innerActions.Readable := by decide
  have haccepted := hreadable.convert_definitionOf ⟨[], []⟩
    (show (Conversion.ofActions {} innerActions).halt? = none by decide +kernel)
  have hall : innerActions.declarations
      = [innerActions.declarations[0], innerActions.declarations[1]] := rfl
  have hchild : innerActions.declarations[1] ∈ innerActions.declarations[0].children :=
    List.mem_cons_self
  obtain ⟨recorded, hentries, hcycles⟩ := @convert_nested_cycles {} ⟨[], []⟩ _ _
    hreadable.tree?_definitionOf (by rw [Actions.Distinct]; decide) List.not_mem_nil
  rcases hcycles _ _ (List.getElem_mem (n := 0) (by decide)) (.single hchild)
    (.single ⟨_, List.getElem_mem (n := 1) (by decide), rfl, by decide⟩)
    with ⟨r, hr⟩ | ⟨n, k, hmem⟩ | ⟨c, -, -, x, hx, houtside, -⟩
  · rw [haccepted] at hr
    cases hr
  · exact ⟨n, k, hentries ▸ List.mem_append_right _ hmem⟩
  · rw [hall, List.mem_pair] at hx
    rcases hx with rfl | rfl
    · exact absurd .refl houtside
    · exact absurd (.single hchild) houtside

/-- A tree in which an action declared before the box runs after the action inside it. -/
def forcedActions : Actions :=
  [("Ship", .simple "Http" ["Pack"] []),
    ("Depot", .scope .scope [] [("Pack", .simple "Compose" ["Depot"] [])])]

/-- The action inside is come to first here. The diagram leads from it to itself, and no cycle is
recorded. -/
theorem convert_nested_cycles_forced :
    forcedActions.Distinct ∧
      (∃ d e, d ∈ forcedActions.declarations ∧ d.Encloses e ∧
        forcedActions.RunsAfter e.name d.name) ∧
      (∃ c, (convert {} ⟨[], []⟩ (definitionOf forcedActions.entries)).2 = .ok c ∧
        Line.edge "Pack" "Pack" none ∈ c.canvas.lines) ∧
      ∀ n k, .dependencyCycle n k
        ∉ (convert {} ⟨[], []⟩ (definitionOf forcedActions.entries)).1.entries := by
  have hreadable : forcedActions.Readable := by decide
  have hchild : forcedActions.declarations[2] ∈ forcedActions.declarations[1].children :=
    List.mem_cons_self
  refine ⟨by rw [Actions.Distinct]; decide, ⟨_, _, List.getElem_mem (n := 1) (by decide),
    .single hchild, _, List.getElem_mem (n := 2) (by decide), rfl, by decide⟩,
    ⟨_, hreadable.convert_definitionOf ⟨[], []⟩ (by decide +kernel), by decide +kernel⟩, ?_⟩
  rw [hreadable.log_definitionOf]
  have hcodes :
      ∀ r ∈ (Log.recordAll ⟨[], []⟩ (Conversion.ofActions {} forcedActions).reports).entries,
      r.code ≠ "W_DEPENDENCY_CYCLE" := by decide +kernel
  exact fun n k hmem => hcodes _ hmem rfl

end Diagram

end Flowchart
