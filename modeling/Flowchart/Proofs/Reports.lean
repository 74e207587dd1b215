import Flowchart.Proofs.Drawing

/-!
# What a drawing reports

The log of a diagram, read back from the strokes that were drawn.

* `Canvas.reportsOfAll` is what strokes report, as `Canvas.linesOfAll` is what they write, and
  `Drawn.reports_eq` says that a diagram was reported on by its strokes, and nothing else after what
  was found in reading;
* `Canvas.halt?_drawAll`: a drawing halts at the first label that cannot be read;
* `filterMap_reportsOfAll` looks for one kind of report: if each stroke reports it as `g` says, the
  log has it where `g` does;
* `Walks.isRemark_of_report_mem`: what a walk reports by itself is a `Diagnostic.IsRemark`, so it
  cannot be taken for a report about a line.
-/

namespace Flowchart

/-! ## Reports without a halt -/

/-- If the work did not halt, everything that was reported came through. -/
theorem Event.reports_append_of_halt? {es fs : List Event} (h : Event.halt? (es ++ fs) = none) :
    Event.reports (es ++ fs) = Event.reports es ++ Event.reports fs ∧
      Event.halt? es = none ∧ Event.halt? fs = none := by
  rw [halt?_append, Option.or_eq_none_iff] at h
  refine ⟨?_, h⟩
  rw [reports_append, h.1]
  rfl

theorem Event.reports_map_report (rs : List Diagnostic) : Event.reports (rs.map .report) = rs := by
  induction rs with
  | nil => rfl
  | cons r rest ih => rw [List.map_cons, reports, ih]

theorem Event.halt?_map_report (rs : List Diagnostic) : Event.halt? (rs.map .report) = none := by
  induction rs with
  | nil => rfl
  | cons r rest ih => exact ih

theorem Event.mem_of_mem_reports {es : List Event} {r : Diagnostic} (h : r ∈ Event.reports es) :
    .report r ∈ es := by
  induction es with
  | nil => exact absurd h List.not_mem_nil
  | cons e rest ih =>
    cases e with
    | report r' =>
      rcases List.mem_cons.mp h with rfl | h
      · exact List.mem_cons_self
      · exact List.mem_cons_of_mem _ (ih h)
    | halt e => exact absurd h List.not_mem_nil

/-- The work on an accepted definition did not halt. -/
theorem convert_halt? {config : Config} {log : Log} {definition : Value} {c : Conversion}
    (h : (convert config log definition).2 = .ok c) : c.halt? = none := by
  rw [convert] at h
  split at h
  · cases h
  · dsimp only at h
    split at h
    · cases h
    · rename_i hhalt
      cases h
      exact hhalt

/-- What was reported on an accepted definition is recorded. -/
theorem log_convert {config : Config} {log : Log} {definition : Value} {c : Conversion}
    (h : (convert config log definition).2 = .ok c) :
    (convert config log definition).1 = log.recordAll c.reports := by
  rw [convert] at h ⊢
  split at h
  · cases h
  · dsimp only at h ⊢
    split at h
    · cases h
    · cases h
      rfl

/-- A log that ignores nothing records all reports. -/
theorem Log.entries_recordAll {log : Log} (h : log.ignored = []) (rs : List Diagnostic) :
    (log.recordAll rs).entries = log.entries ++ rs := by
  rw [recordAll, List.filter_eq_self.mpr fun r _ => by simp [accepts, h]]

namespace Diagram

theorem Stroke.halt?_halts (s : Stroke) : Event.halt? s.halts = s.label?.bind labelLimit? := by
  unfold halts
  cases s.label?.bind labelLimit? with
  | none => rfl
  | some e => rfl

namespace Canvas

/-- A drawing halts at the first stroke whose label cannot be read. -/
theorem halt?_drawAll (c : Canvas) (ss : List Stroke) : Event.halt? (c.drawAll ss).2
    = ss.findSome? fun s => s.label?.bind labelLimit? := by
  induction ss generalizing c with
  | nil => rfl
  | cons s rest ih =>
    rw [drawAll, Event.halt?_append, ih, draw, Event.halt?_append, Event.halt?_map_report,
      Option.or_none, Stroke.halt?_halts, List.findSome?_cons]
    cases s.label?.bind labelLimit? with
    | none => rfl
    | some e => rfl

theorem exists_limit_of_findSome? {ss : List Stroke} {e : Decimal.LimitError}
    (h : (ss.findSome? fun s => s.label?.bind labelLimit?) = some e) :
    ∃ label ∈ ss.filterMap Stroke.label?, labelLimit? label = some e := by
  obtain ⟨s, hs, hlimit⟩ := List.exists_of_findSome?_eq_some h
  obtain ⟨label, hlabel, hlimit⟩ := Option.bind_eq_some_iff.mp hlimit
  exact ⟨label, List.mem_filterMap.mpr ⟨s, hs, hlabel⟩, hlimit⟩

/-! ## The reports of strokes -/

/-- What strokes report when they are drawn one after another. -/
def reportsOfAll (c : Canvas) : List Stroke → List Diagnostic
  | [] => []
  | s :: rest => (c.apply s).2 ++ (c.draw s).1.reportsOfAll rest

/-- A drawing that does not halt reports what its strokes do. -/
theorem reports_drawAll {c : Canvas} {ss : List Stroke}
    (h : Event.halt? (c.drawAll ss).2 = none) :
    Event.reports (c.drawAll ss).2 = c.reportsOfAll ss := by
  induction ss generalizing c with
  | nil => rfl
  | cons s rest ih =>
    rw [drawAll] at h ⊢
    obtain ⟨hreports, hdraw, hrest⟩ := Event.reports_append_of_halt? h
    have hhalts : s.halts = [] := by
      -- a stroke that halts does so before it reports
      rw [draw, Event.halt?_append, Option.or_eq_none_iff] at hdraw
      cases hlimit : s.label?.bind labelLimit? with
      | none => simp [Stroke.halts, hlimit]
      | some e => simp [Stroke.halts, hlimit, Event.halt?] at hdraw
    have hfirst : Event.reports (c.draw s).2 = (c.apply s).2 := by
      rw [draw, hhalts]
      exact Event.reports_map_report _
    rw [hreports, hfirst, ih hrest]
    rfl

/-- A kind of report that each stroke makes as `g` says. -/
theorem filterMap_reportsOfAll {β : Type} {f : Diagnostic → Option β} {g : Stroke → Option β}
    {ss : List Stroke} (h : ∀ s ∈ ss, ∀ c : Canvas, (c.apply s).2.filterMap f = (g s).toList)
    (c : Canvas) : (c.reportsOfAll ss).filterMap f = ss.filterMap g := by
  induction ss generalizing c with
  | nil => rfl
  | cons s rest ih =>
    rw [reportsOfAll, List.filterMap_append, h s List.mem_cons_self c,
      ih fun s' hs' => h s' (List.mem_cons_of_mem _ hs')]
    cases hg : g s with
    | none => simp [hg]
    | some b => simp [hg]

theorem report_mem_reportsOfAll {ss : List Stroke} {r : Diagnostic} (h : .report r ∈ ss)
    (c : Canvas) : r ∈ c.reportsOfAll ss := by
  induction ss generalizing c with
  | nil => exact absurd h List.not_mem_nil
  | cons s rest ih =>
    rw [reportsOfAll, List.mem_append]
    rcases List.mem_cons.mp h with rfl | h
    · exact Or.inl List.mem_cons_self
    · exact Or.inr (ih h _)

end Canvas

/-- What is reported of a diagram: what was found in reading it, then what its strokes report. -/
theorem Drawn.reports_eq {config : Config} {actions : Actions} {c : Conversion} {t : Trip}
    (h : Drawn config actions c t) (hhalt : c.halt? = none) :
    ∃ earlier : List Diagnostic, (∀ r ∈ earlier, (Event.report r).IsPreliminary) ∧
      c.reports = earlier ++ Canvas.blank.reportsOfAll (startStrokes actions ++ t.strokes) := by
  obtain ⟨earlier, hearlier, hevents⟩ := h.events_eq
  rw [Conversion.halt?, hevents] at hhalt
  obtain ⟨hreports, -, hdrawing⟩ := Event.reports_append_of_halt? hhalt
  refine ⟨Event.reports earlier, fun r hr => hearlier _ (Event.mem_of_mem_reports hr), ?_⟩
  rw [Conversion.reports, hevents, hreports, Canvas.reports_drawAll hdrawing]

theorem Drawn.mem_reports {config : Config} {actions : Actions} {c : Conversion} {t : Trip}
    (h : Drawn config actions c t) (hhalt : c.halt? = none) {r : Diagnostic}
    (hr : .report r ∈ t.strokes) : r ∈ c.reports := by
  obtain ⟨earlier, -, hreports⟩ := h.reports_eq hhalt
  rw [hreports]
  exact List.mem_append_right _
    (Canvas.report_mem_reportsOfAll (List.mem_append_right _ hr) _)

/-! ## What a walk reports by itself -/

end Diagram

/-- A report about the actions, and not about a line that was drawn. -/
def Diagnostic.IsRemark : Diagnostic → Prop
  | noStartActions | dependencyNotFound _ _ | dependencyCycle _ _ | emptyBranch _ _ | noCases _
  | emptyScope _ _ | exitNodes _ _ => True
  | _ => False

/-- A report about a line that was drawn. -/
def Diagnostic.IsOfLine : Diagnostic → Prop
  | classDefined _ | connected _ _ _ | subgraphStarted _ _ | subgraphEnded _ _ => True
  | _ => False

theorem Diagnostic.IsRemark.not_isOfLine {r : Diagnostic} (h : r.IsRemark) : ¬r.IsOfLine := by
  cases r with
  | classDefined className => exact h.elim
  | connected source target note => exact h.elim
  | subgraphStarted action title => exact h.elim
  | subgraphEnded action title => exact h.elim
  | _ => exact id

/-- All that an action reports when it is opened is that a switch has no cases. -/
theorem Action.eq_noCases_of_report_mem_opening {styles : StyleTable} {name : String} {a : Action}
    {r : Diagnostic} (h : .report r ∈ a.opening styles name) : r = .noCases name := by
  have hreports : r ∈ a.reports name := by simpa [opening, nodeStroke] using h
  rw [reports.eq_def] at hreports
  split at hreports
  · exact List.mem_singleton.mp hreports
  · exact absurd hreports List.not_mem_nil

/-- When it is closed, it reports nothing. -/
theorem Action.report_not_mem_closing {name : String} {a : Action} {r : Diagnostic} :
    .report r ∉ a.closing name := by
  simp [closing]

/-- A report that a part of the action `name` is empty. -/
def Diagnostic.IsEmptiness (name : String) : Diagnostic → Prop
  | emptyBranch action _ | emptyScope action _ => action = name
  | _ => False

theorem Diagnostic.IsEmptiness.isRemark {name : String} {r : Diagnostic} (h : r.IsEmptiness name) :
    r.IsRemark := by
  cases r with
  | emptyBranch action branch => trivial
  | emptyScope action kind => trivial
  | _ => exact h.elim

theorem Action.isEmptiness_of_whenEmpty {name : String} {a : Action} {g : Diagram.Group}
    (hg : g ∈ a.groups name) {r : Diagnostic} (h : g.whenEmpty = some r) : r.IsEmptiness name := by
  cases a with
  | simple kind runAfter body =>
    rw [List.mem_singleton.mp hg] at h
    cases h
  | condition runAfter yes no =>
    simp only [groups, List.mem_cons, List.not_mem_nil, or_false] at hg
    rcases hg with rfl | rfl
    · cases h
      rfl
    · cases h
      rfl
  | switch runAfter cases default =>
    simp only [groups, List.mem_append, List.mem_map, List.mem_singleton] at hg
    rcases hg with ⟨e, -, rfl⟩ | rfl
    · cases h
      rfl
    · cases h
  | scope kind runAfter body =>
    rw [List.mem_singleton.mp hg] at h
    cases h
    rfl

namespace Diagram

theorem leave_not_mem_memberTasks {w : Wiring} {isFirst : Bool} {ds : List Declaration}
    {id : String} {r : Diagnostic} : .leave id r ∉ memberTasks w isFirst ds := by
  induction ds generalizing isFirst with
  | nil => exact List.not_mem_nil
  | cons d rest ih =>
    rw [memberTasks, Wiring.tasks]
    split
    · split
      · simp [ih]
      · simp [ih]
    · simp [ih]

/-- The groups inside an action report by themselves that they are empty. -/
theorem isEmptiness_of_leave_mem_tasks {d : Declaration} {id : String} {r : Diagnostic}
    (h : .leave id r ∈ d.tasks) : r.IsEmptiness d.name := by
  obtain ⟨g, hg, h⟩ := List.mem_flatMap.mp h
  rw [Group.tasks] at h
  split at h
  · exact absurd h leave_not_mem_memberTasks
  · rename_i hempty
    simp only [List.mem_singleton, Task.leave.injEq] at h
    exact Action.isEmptiness_of_whenEmpty hg (h.2 ▸ hempty)
  · exact absurd h List.not_mem_nil

variable {actions : Actions} {styles : StyleTable} {ts : List Task} {m : Memo} {t : Trip}

/-- What a trip reports by itself is about actions. -/
theorem Walks.isRemark_of_report_mem (h : Walks actions styles ts m t)
    (hts : ∀ id r, .leave id r ∈ ts → r.IsRemark) :
    ∀ r, .report r ∈ t.strokes → r.IsRemark := by
  have harrows : ∀ (m : Memo) (name dependency : String) (r : Diagnostic),
      .report r ∉ m.arrows name dependency := by
    simp [Memo.arrows]
  induction h with
  | nil m => simp
  | wire _ ih | again _ _ _ ih =>
    intro r hr
    exact ih (fun id r h => hts id r (List.mem_cons_of_mem _ h)) r (by simpa using hr)
  | @leave id r' ts m t _ ih =>
    intro r hr
    rcases List.mem_cons.mp hr with heq | hr
    · rw [Stroke.report.injEq] at heq
      exact hts id r (heq ▸ List.mem_cons_self)
    · exact ih (fun id r h => hts id r (List.mem_cons_of_mem _ h)) r hr
  | @fresh d ts m before inside t _ _ _ _ _ ih₁ ih₂ ih₃ =>
    intro r hr
    have hbefore := ih₁ (fun id r h => by simp [Declaration.dependencyTasks] at h) r
    have hinside := ih₂ (fun id r h => (isEmptiness_of_leave_mem_tasks h).isRemark) r
    have hrest := ih₃ (fun id r h => hts id r (List.mem_cons_of_mem _ h)) r
    simp only [Trip.strokes_prepend, List.mem_append, List.mem_singleton, Stroke.report.injEq,
      Action.report_not_mem_closing, or_false] at hr
    rcases hr with ((hr | hr | hr) | rfl) | hr
    · exact hbefore hr
    · exact Action.eq_noCases_of_report_mem_opening hr ▸ trivial
    · exact hinside hr
    · trivial
    · exact hrest hr
  | unknown _ _ ih =>
    intro r hr
    rcases List.mem_cons.mp hr with heq | hr
    · cases heq
      trivial
    · exact ih (fun id r h => hts id r (List.mem_cons_of_mem _ h)) r hr
  | @met name dependency d state ts m t _ _ _ ih =>
    intro r hr
    simp only [Trip.strokes_prepend, List.mem_append, harrows, or_false] at hr
    rcases hr with hr | hr
    · cases state with
      | underway =>
        cases List.mem_singleton.mp hr
        trivial
      | done => exact absurd hr List.not_mem_nil
    · exact ih (fun id r h => hts id r (List.mem_cons_of_mem _ h)) r hr
  | force _ _ _ _ ih₁ ih₂ =>
    intro r hr
    simp only [Trip.strokes_prepend, List.mem_append, harrows, or_false] at hr
    rcases hr with hr | hr
    · exact ih₁ (by simp) r hr
    · exact ih₂ (fun id r h => hts id r (List.mem_cons_of_mem _ h)) r hr

/-- Neither does a drawing report more by itself. -/
theorem Drawn.isRemark_of_report_mem {config : Config} {c : Conversion}
    (h : Drawn config actions c t) :
    ∀ r, .report r ∈ startStrokes actions ++ t.strokes → r.IsRemark := by
  intro r hr
  rcases List.mem_append.mp hr with hr | hr
  · simp only [startStrokes, List.mem_append, List.mem_cons, List.not_mem_nil, or_false,
      reduceCtorEq, false_or, List.mem_map, and_false, exists_false] at hr
    split at hr
    · cases List.mem_singleton.mp hr
      trivial
    · exact absurd hr List.not_mem_nil
  · exact h.walks.isRemark_of_report_mem
      (fun id r h => absurd h leave_not_mem_memberTasks) r hr

/-- A stroke is reported because it says so, or with a line. -/
theorem Canvas.eq_or_isOfLine_of_mem_apply {c : Canvas} {s : Stroke} {r : Diagnostic}
    (h : r ∈ (c.apply s).2) : s = .report r ∨ r.IsOfLine := by
  cases s with
  | report d => exact Or.inl (by rw [List.mem_singleton.mp h])
  | connect source target text note =>
    simp only [apply, List.mem_ite_nil_right, List.mem_singleton] at h
    exact Or.inr (h.2 ▸ trivial)
  | assign id style =>
    simp only [apply, List.mem_ite_nil_right, List.mem_singleton] at h
    exact Or.inr (h.2 ▸ trivial)
  | openBox action title => exact Or.inr (List.mem_singleton.mp h ▸ trivial)
  | closeBox action title => exact Or.inr (List.mem_singleton.mp h ▸ trivial)
  | _ => exact absurd h List.not_mem_nil

/-- The report that a stroke makes without drawing anything. -/
def Stroke.report? : Stroke → Option Diagnostic
  | report r => some r
  | _ => none

/-- A kind of report that is never made of a line comes from the strokes that say so. -/
theorem Canvas.filterMap_report? {β : Type} {f : Diagnostic → Option β}
    (hf : ∀ r, r.IsOfLine → f r = none) (c : Canvas) (ss : List Stroke) :
    (c.reportsOfAll ss).filterMap f = ss.filterMap fun s => s.report?.bind f := by
  refine Canvas.filterMap_reportsOfAll (fun s _ c => ?_) c
  cases s with
  | report r => cases hr : f r <;> simp [apply, Stroke.report?, hr]
  | _ =>
    exact List.filterMap_eq_nil_iff.mpr fun r hr =>
      hf r ((eq_or_isOfLine_of_mem_apply hr).resolve_left (by simp))

/-- Whatever happens in a drawing is reported by a stroke that says so, or with a line. -/
theorem Canvas.report_mem_of_event {c : Canvas} {ss : List Stroke} {r : Diagnostic}
    (h : .report r ∈ (c.drawAll ss).2) : .report r ∈ ss ∨ r.IsOfLine := by
  induction ss generalizing c with
  | nil => exact absurd h List.not_mem_nil
  | cons s rest ih =>
    rcases List.mem_append.mp h with h | h
    · rcases List.mem_append.mp h with hhalt | hreport
      · rw [Stroke.halts, Option.mem_toList, Option.map_eq_some_iff] at hhalt
        obtain ⟨e, -, he⟩ := hhalt
        cases he
      · obtain ⟨r', hr', heq⟩ := List.mem_map.mp hreport
        cases heq
        rcases eq_or_isOfLine_of_mem_apply hr' with rfl | hline
        · exact Or.inl List.mem_cons_self
        · exact Or.inr hline
    · exact (ih h).imp_left (List.mem_cons_of_mem _)

/-- Whether or not the work has halted, a report on a diagram was made before it was drawn, by one
of its strokes, or with one of its lines. -/
theorem Drawn.report_cases {config : Config} {c : Conversion} (h : Drawn config actions c t)
    {r : Diagnostic} (hmem : r ∈ c.reports) : (Event.report r).IsPreliminary ∨
      .report r ∈ startStrokes actions ++ t.strokes ∨ r.IsOfLine := by
  obtain ⟨earlier, hearlier, hevents⟩ := h.events_eq
  have hevent := Event.mem_of_mem_reports hmem
  rw [hevents] at hevent
  exact (List.mem_append.mp hevent).imp (hearlier _) Canvas.report_mem_of_event

/-- A remark on a diagram was made while it was drawn. -/
theorem Drawn.report_mem_of_reports {config : Config} {c : Conversion}
    (h : Drawn config actions c t) {r : Diagnostic} (hr : r.IsRemark) (hmem : r ∈ c.reports) :
    .report r ∈ startStrokes actions ++ t.strokes := by
  rcases h.report_cases hmem with hearlier | hstroke | hline
  · cases r with
    | malformedAction action defect => exact hr.elim
    | duplicateName name previous => exact hr.elim
    | _ => exact hearlier.elim
  · exact hstroke
  · exact absurd hline hr.not_isOfLine

end Diagram

end Flowchart
