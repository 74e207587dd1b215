import Flowchart.Proofs.Exits
import Flowchart.Proofs.History
import Flowchart.Proofs.Reachability

/-!
# Reported cycles

A walk that comes to an action which is still being drawn reports a cycle. In a tree of different
names it reports no cycle that is not there, and is silent only if actions do not run after
themselves.

* `Pending` is what holds of the tasks that are still to be done: the actions that are being drawn
  are a path, each needs the next one, and the last one asks for the tasks. `Walks.cycle_needs`: so
  a reported cycle is one;
* `Chronicle.drawn_before`: without a report, whatever an action runs after is drawn before it. The
  order of drawing is then a numbering of the actions, and `Chronicle.acyclic` says that there is no
  cycle to report;
* `convert_cycles` says both of the log of a conversion.
-/

namespace Flowchart.Diagram

variable {actions : Actions} {styles : StyleTable} {ts : List Task} {m : Memo} {t : Trip}

/-! ## Cycles that are reported -/

/-- Tasks whose declared targets lie ahead of the actions that are being drawn. A dependency is
asked for by an action that runs after it, and this is the last one that was started. -/
structure Pending (actions : Actions) (m : Memo) (ts : List Task) : Prop where
  ahead : Ahead actions m ts
  after : ∀ name k, .depend name k ∈ ts → actions.RunsAfter name k
  last : ∀ name k, .depend name k ∈ ts → ∀ u, m.progress? u = some .underway →
    Relation.ReflTransGen actions.Needs u name
  plain : ∀ id r, .leave id r ∈ ts → ∃ name, r.IsEmptiness name

namespace Pending

/-- Visits alone ask for no dependencies. -/
theorem of_visits (ha : Ahead actions m ts) (h : ∀ task ∈ ts, ∃ d, task = .visit d) :
    Pending actions m ts := by
  refine ⟨ha, fun name k hmem => ?_, fun name k hmem => ?_, fun id r hmem => ?_⟩ <;>
    obtain ⟨d, hd⟩ := h _ hmem <;> cases hd

theorem tail {task : Task} (h : Pending actions m (task :: ts)) : Pending actions m ts :=
  ⟨h.ahead.tail, fun name k hmem => h.after name k (List.mem_cons_of_mem _ hmem),
    fun name k hmem => h.last name k (List.mem_cons_of_mem _ hmem),
    fun id r hmem => h.plain id r (List.mem_cons_of_mem _ hmem)⟩

/-- Only the actions that are being drawn matter. -/
theorem congr {m' : Memo} (h : Pending actions m ts)
    (hm : ∀ u, m'.progress? u = some .underway ↔ m.progress? u = some .underway) :
    Pending actions m' ts :=
  ⟨h.ahead.congr hm, h.after, fun name k hmem u hu => h.last name k hmem u ((hm u).mp hu), h.plain⟩

section Fresh

variable {d : Declaration} {before inside : Trip}

/-- An action that is started is the last one of the path, and asks for what it runs after. -/
theorem dependencies (hd : d ∈ actions.declarations) (h : Pending actions m (.visit d :: ts)) :
    Pending actions (m.start d.name) d.dependencyTasks := by
  refine ⟨h.ahead.dependencies hd, fun name k hmem => ?_, fun name k hmem u hu => ?_,
    fun id r hmem => ?_⟩ <;> obtain ⟨k', hk, heq⟩ := List.mem_map.mp hmem <;> cases heq
  · exact ⟨d, hd, rfl, hk⟩
  · rw [Memo.progress?_start] at hu
    split at hu
    · rename_i heq
      exact heq ▸ .refl
    · exact (h.ahead u hu (.visit d) List.mem_cons_self d hd rfl).to_reflTransGen

/-- The groups inside it ask for no dependencies. -/
theorem groups (hd : d ∈ actions.declarations) (h : Pending actions m (.visit d :: ts))
    (dependencies : Walks actions styles d.dependencyTasks (m.start d.name) before) :
    Pending actions before.memo d.tasks :=
  ⟨h.ahead.groups hd dependencies, fun _ _ hmem => absurd hmem depend_not_mem_tasks,
    fun _ _ hmem => absurd hmem depend_not_mem_tasks,
    fun _ _ hmem => ⟨d.name, isEmptiness_of_leave_mem_tasks hmem⟩⟩

/-- An action that another runs after is visited by itself. -/
theorem forced {name : String} (h : Pending actions m (.depend name d.name :: ts)) :
    Pending actions m [.visit d] :=
  of_visits h.ahead.forced fun _ hmem => ⟨d, List.mem_singleton.mp hmem⟩

end Fresh

end Pending

/-- A cycle is reported of actions that need each other: the first runs after the second, and the
second, which is being drawn, needs the first or is the same. -/
theorem Walks.cycle_needs (h : Walks actions styles ts m t) (hts : Pending actions m ts)
    {n k : String} (hr : .report (.dependencyCycle n k) ∈ t.strokes) :
    actions.RunsAfter n k ∧ Relation.ReflTransGen actions.Needs k n := by
  have harrows : ∀ (m : Memo) (name dependency : String) (r : Diagnostic),
      .report r ∉ m.arrows name dependency := by
    simp [Memo.arrows]
  induction h with
  | nil m => exact absurd hr List.not_mem_nil
  | wire _ ih | again _ _ _ ih | unknown _ _ ih => exact ih hts.tail (by simpa using hr)
  | leave _ ih =>
    rcases List.mem_cons.mp hr with heq | hr
    · rw [Stroke.report.injEq] at heq
      obtain ⟨name, hempty⟩ := hts.plain _ _ List.mem_cons_self
      exact (heq ▸ hempty : Diagnostic.IsEmptiness name (.dependencyCycle n k)).elim
    · exact ih hts.tail hr
  | @fresh d ts m before inside t declared new dependencies groups _ ih₁ ih₂ ih₃ =>
    have hopening : .report (.dependencyCycle n k) ∉ d.action.opening styles d.name := by
      intro hmem
      cases Action.eq_noCases_of_report_mem_opening hmem
    simp only [Trip.strokes_prepend, List.mem_append, List.mem_singleton, Stroke.report.injEq,
      hopening, Action.report_not_mem_closing, reduceCtorEq, false_or, or_false] at hr
    have hunderway : ∀ u, inside.memo.progress? u = some .underway ↔
        (m.start d.name).progress? u = some .underway := fun u =>
      (groups.underway_iff u).trans (dependencies.underway_iff u)
    rcases hr with (hr | hr) | hr
    · exact ih₁ (hts.dependencies declared) hr
    · exact ih₂ (hts.groups declared dependencies) hr
    · exact ih₃ (hts.tail.congr (Memo.underway_finish_iff _ new hunderway)) hr
  | @met name dependency d state ts m t known seen _ ih =>
    simp only [Trip.strokes_prepend, List.mem_append, harrows, or_false] at hr
    rcases hr with hr | hr
    · cases state with
      | underway =>
        cases List.mem_singleton.mp hr
        exact ⟨hts.after _ _ List.mem_cons_self, hts.last _ _ List.mem_cons_self _ seen⟩
      | done => exact absurd hr List.not_mem_nil
    · exact ih hts.tail hr
  | @force name dependency d ts m first t known new drawn _ ih₁ ih₂ =>
    simp only [Trip.strokes_prepend, List.mem_append, harrows, or_false] at hr
    obtain ⟨-, rfl⟩ := Index.mem_declarations known
    rcases hr with hr | hr
    · exact ih₁ hts.forced hr
    · exact ih₂ (hts.tail.congr drawn.underway_iff) hr

/-! ## Histories without reports -/

namespace Chronicle

variable {history : List Moment}

/-- If no cycle has been met, an action is drawn after the declared actions that it runs after. -/
theorem drawn_before (h : Chronicle actions history m) (hnone : ∀ n k, .cycle n k ∉ history)
    {before : List Moment} {d : Declaration} (hbefore : before ++ [.draw d] <+: history)
    {k : String} (hk : k ∈ d.action.runAfter)
    (hknown : ((Index.ofActions actions).1.lookup k).isSome) :
    ∃ e, .draw e ∈ before ∧ e.name = k := by
  obtain ⟨-, hdone⟩ := h.prepared before d hbefore k hk hknown
  obtain ⟨exits, hdone⟩ := hdone.resolve_left fun hmem =>
    hnone _ _ (hbefore.subset (List.mem_append_left _ hmem))
  obtain ⟨e, -, hname, hfinished⟩ := hdone.finished
  exact ⟨e, hfinished.subset List.mem_cons_self, hname⟩

/-- If no cycle has been met and all actions have been drawn, the order in which they were drawn
shows that none runs after itself. -/
theorem acyclic (h : Chronicle actions history m) (hnone : ∀ n k, .cycle n k ∉ history)
    (hall : ∀ d ∈ actions.declarations, .draw d ∈ history)
    (hnodup : ((drawnIn history).map Declaration.name).Nodup) :
    ∀ n, ¬ Relation.TransGen actions.RunsAfter n n := by
  -- names that are not declared come first, since an action may run after them as well
  refine Actions.runsAfter_acyclic_of_rank
    (fun n => if ((Index.ofActions actions).1.lookup n).isSome
      then ((drawnIn history).map Declaration.name).idxOf n + 1 else 0) fun d hd k hk => ?_
  rw [if_pos (Index.lookup_isSome hd)]
  split
  · rename_i hknown
    obtain ⟨before, after, hsplit⟩ := List.append_of_mem (hall d hd)
    have hbefore : before ++ [.draw d] <+: history :=
      ⟨after, by rw [hsplit, List.append_assoc, List.singleton_append]⟩
    obtain ⟨e, he, rfl⟩ := h.drawn_before hnone hbefore hk hknown
    have hnames : (drawnIn history).map Declaration.name
        = (drawnIn before).map Declaration.name
          ++ d.name :: (drawnIn after).map Declaration.name := by
      simp [hsplit, drawnIn, Moment.drawn?]
    rw [hnames] at hnodup ⊢
    have hd' : d.name ∉ (drawnIn before).map Declaration.name := fun hmem =>
      List.disjoint_of_nodup_append hnodup hmem List.mem_cons_self
    have he' : e.name ∈ (drawnIn before).map Declaration.name :=
      List.mem_map_of_mem (mem_drawnIn.mpr he)
    have hlt := List.idxOf_lt_length_of_mem he'
    rw [List.idxOf_append_of_mem he', List.idxOf_append_of_notMem hd', List.idxOf_cons_self]
    omega
  · exact Nat.succ_pos _

end Chronicle

/-! ## Diagrams -/

theorem pending_rootTasks : Pending actions .empty (rootTasks actions) :=
  .of_visits (ahead_empty _) fun _ => rootTasks_visit

/-- A cycle that was met is reported if the work comes to its end. -/
theorem Drawn.cycle_mem_reports {config : Config} {c : Conversion} (h : Drawn config actions c t)
    (hhalt : c.halt? = none) {history : List Moment}
    (hr : Recount actions config.styles (rootTasks actions) t [] history) {n k : String}
    (hmem : .cycle n k ∈ history) : .dependencyCycle n k ∈ c.reports := by
  refine h.mem_reports hhalt ?_
  rw [← hr.strokes_eq]
  exact List.mem_flatMap.mpr ⟨_, hmem, List.mem_cons_self⟩

/-- In a tree of different names a conversion that comes to its end without having met a cycle
shows that there is none. -/
theorem Drawn.acyclic {config : Config} {c : Conversion} (h : Drawn config actions c t)
    (hdist : actions.Distinct) (hhalt : c.halt? = none)
    (hnone : ∀ n k, .dependencyCycle n k ∉ c.reports) :
    ∀ n, ¬ Relation.TransGen actions.RunsAfter n n := by
  obtain ⟨history, hr⟩ := h.walks.recount (chronicle_nil actions)
  have hchronicle : Chronicle actions history t.memo := hr.chronicle
  have hnames := (hr.drawn.map Declaration.name).nodup_iff.mpr h.names_drawn.2
  refine hchronicle.acyclic (fun n k hmem => hnone n k (h.cycle_mem_reports hhalt hr hmem))
    (fun d hd => ?_) hnames
  exact mem_drawnIn.mp (hr.drawn.mem_iff.mpr (h.walks.mem_drawn hdist d hd))

/-- The cycles that a conversion records. Each of them is about an action that runs after another
one which is the same or needs it, by steps to what an action runs after or to what is directly
inside it. If all names are different and actions run after themselves, wherever they are declared,
then a cycle is recorded unless the log ignores it or the work has halted at a number. -/
theorem convert_cycles {config : Config} {log : Log} {definition : Value} {actions : Actions}
    (htree : Definition.tree? definition = some actions) :
    ∃ recorded, (convert config log definition).1.entries = log.entries ++ recorded ∧
      (∀ n k, .dependencyCycle n k ∈ recorded →
        actions.RunsAfter n k ∧ (n = k ∨ Relation.TransGen actions.Needs k n)) ∧
      (actions.Distinct → "W_DEPENDENCY_CYCLE" ∉ log.ignored →
        (∃ n, Relation.TransGen actions.RunsAfter n n) →
        (∃ e, (convert config log definition).2 = .error (.limit e)) ∨
          ∃ n k, .dependencyCycle n k ∈ recorded) := by
  obtain ⟨c, t, ht, hconvert⟩ := convert_of_tree config log htree
  rw [hconvert]
  refine ⟨c.reports.filter log.accepts, rfl, fun n k hmem => ?_, fun hdist hlog hcycle => ?_⟩
  · have hstroke := ht.report_mem_of_reports (r := .dependencyCycle n k) trivial
      (List.mem_filter.mp hmem).1
    have hstart : .report (.dependencyCycle n k) ∉ startStrokes actions := by
      simp [startStrokes]
    obtain ⟨hafter, hneeds⟩ := ht.walks.cycle_needs pending_rootTasks
      ((List.mem_append.mp hstroke).resolve_left hstart)
    exact ⟨hafter, Relation.reflTransGen_iff_eq_or_transGen.mp hneeds⟩
  · obtain ⟨n, hn⟩ := hcycle
    cases hhalt : c.halt? with
    | some e => exact Or.inl ⟨e, rfl⟩
    | none =>
      refine Or.inr ?_
      by_contra hnone
      refine ht.acyclic hdist hhalt (fun n k hmem => hnone ⟨n, k, ?_⟩) n hn
      have haccepts : log.accepts (.dependencyCycle n k) := by
        simpa [Log.accepts, Diagnostic.code] using hlog
      exact List.mem_filter.mpr ⟨hmem, haccepts⟩

/-- A tree in which two actions run after each other, one of them inside a box. -/
def cyclicActions : Actions :=
  [("Ship", .simple "Http" ["Pack"] []),
    ("Depot", .scope .scope [] [("Pack", .simple "Compose" ["Ship"] [])])]

/-- The cycle is recorded in a log that ignores nothing. -/
theorem convert_cycles_across : ∃ n k, .dependencyCycle n k
    ∈ (convert {} ⟨[], []⟩ (definitionOf cyclicActions.entries)).1.entries := by
  have hreadable : cyclicActions.Readable := by decide
  have haccepted := hreadable.convert_definitionOf ⟨[], []⟩
    (show (Conversion.ofActions {} cyclicActions).halt? = none by decide +kernel)
  obtain ⟨recorded, hentries, -, hcomplete⟩ :=
    @convert_cycles {} ⟨[], []⟩ _ _ hreadable.tree?_definitionOf
  have hship : cyclicActions.RunsAfter "Ship" "Pack" :=
    ⟨_, List.getElem_mem (n := 0) (by decide), rfl, by decide⟩
  have hpack : cyclicActions.RunsAfter "Pack" "Ship" :=
    ⟨_, List.getElem_mem (n := 2) (by decide), rfl, by decide⟩
  obtain ⟨e, he⟩ | ⟨n, k, hmem⟩ := hcomplete (by rw [Actions.Distinct]; decide) List.not_mem_nil
    ⟨"Ship", .tail (.single hship) hpack⟩
  · rw [haccepted] at he
    cases he
  · exact ⟨n, k, hentries ▸ List.mem_append_right _ hmem⟩

end Flowchart.Diagram
