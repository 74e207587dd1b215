import Flowchart.Proofs.Marks

/-!
# The warnings about a tree

A drawing warns of what is missing in a tree: names that are not declared, and parts that hold no
actions. Which warnings there are can be read off the tree.

* `Declaration.gaps` is what is missing at one action, `Actions.gaps` in a tree;
* `Walks.gaps_perm`: a trip warns of the gaps of its tasks and of the declarations it draws;
* `convert_warnings`: apart from cycles, the warnings about a drawing are the gaps of the tree. In
  no log is there a warning that an action was not found in its group.
-/

namespace Flowchart

open Diagram

/-! ## Gaps -/

/-- A warning other than that of a cycle. -/
def Diagnostic.isGap (r : Diagnostic) : Bool :=
  r.severity == .warning && r.code != "W_DEPENDENCY_CYCLE"

/-- The parts of an action that hold no actions, and the cases that a switch does not have. The
default branch of a switch and the body of a simple action may be empty. -/
def Action.emptyParts (name : String) : Action → List Diagnostic
  | simple _ _ _ => []
  | condition _ yes no =>
    (if yes.isEmpty then [.emptyBranch name .yes] else [])
      ++ (if no.isEmpty then [.emptyBranch name .no] else [])
  | switch _ cases _ =>
    (if cases.isEmpty then [.noCases name] else [])
      ++ (cases.filter fun (_, body) => body.isEmpty).map fun (label, _) =>
        .emptyBranch name (.case label)
  | scope kind _ body => if body.isEmpty then [.emptyScope name kind.name] else []

/-- The names that are declared in a tree. -/
def Actions.names (actions : Actions) : List String := actions.declarations.map Declaration.name

/-- What is missing at an action of a tree: what it runs after without being declared, name by name,
and the actions in its parts. -/
def Declaration.gaps (actions : Actions) (d : Declaration) : List Diagnostic :=
  (d.action.runAfter.filter fun k => k ∉ actions.names).map (.dependencyNotFound d.name)
    ++ d.action.emptyParts d.name

/-- What is missing in a tree. -/
def Actions.gaps (actions : Actions) : List Diagnostic :=
  (if startingNames actions = [] then [Diagnostic.noStartActions] else [])
    ++ actions.declarations.flatMap (Declaration.gaps actions)

/-- The index has the names that are declared. -/
theorem Index.lookup_eq_none_iff {actions : Actions} {k : String} :
    (Index.ofActions actions).1.lookup k = none ↔ k ∉ actions.names := by
  rw [Actions.names, List.mem_map]
  constructor
  · rintro hnone ⟨d, hd, rfl⟩
    have hsome := Index.lookup_isSome hd
    rw [hnone] at hsome
    cases hsome
  · intro hnone
    by_contra hsome
    obtain ⟨d, hd⟩ := Option.ne_none_iff_exists'.mp hsome
    exact hnone ⟨d, Index.mem_declarations hd⟩

namespace Diagram

/-! ## Gaps of tasks and strokes -/

/-- The gap that a stroke reports. -/
def Stroke.gap? : Stroke → Option Diagnostic
  | report r => if r.isGap then some r else none
  | _ => none

/-- What is missing when a task is carried out, apart from what is drawn there. -/
def Task.gaps (actions : Actions) : Task → List Diagnostic
  | leave _ r => [r]
  | depend name dependency =>
    if dependency ∈ actions.names then [] else [.dependencyNotFound name dependency]
  | wire _ _ _ _ | visit _ => []

theorem gaps_memberTasks (actions : Actions) (w : Wiring) (isFirst : Bool) (ds : List Declaration) :
    (memberTasks w isFirst ds).flatMap (Task.gaps actions) = [] := by
  have hwire : ∀ (isFirst : Bool) (name : String),
      (w.tasks isFirst name).flatMap (Task.gaps actions) = [] := by
    intro isFirst name
    rw [Wiring.tasks]
    split
    · split
      · rfl
      · rfl
    · rfl
  induction ds generalizing isFirst with
  | nil => rfl
  | cons d rest ih =>
    rw [memberTasks, List.flatMap_append, hwire, List.flatMap_cons, ih]
    rfl

/-- A group has a gap if it is empty and should not be. -/
theorem gaps_groupTasks (actions : Actions) (path : List String) (id : String) (g : Group) :
    (g.tasks path id).flatMap (Task.gaps actions)
      = if g.actions.isEmpty then g.whenEmpty.toList else [] := by
  rw [Group.tasks]
  split
  · rename_i hempty
    rw [gaps_memberTasks, hempty]
    rfl
  · rename_i r hempty hreport
    rw [hempty, hreport]
    rfl
  · rename_i hempty hreport
    rw [hempty, hreport]
    rfl

/-- What is missing inside an action is reported before its groups are drawn or while they are. -/
theorem gaps_tasks (actions : Actions) (d : Declaration) :
    d.action.reports d.name ++ d.tasks.flatMap (Task.gaps actions)
      = d.action.emptyParts d.name := by
  obtain ⟨name, action, path, container⟩ := d
  rw [Declaration.tasks, List.flatMap_assoc]
  simp only [gaps_groupTasks]
  cases action with
  | simple kind runAfter body => simp [Action.groups, Action.reports, Action.emptyParts]
  | condition runAfter yes no => simp [Action.groups, Action.reports, Action.emptyParts]
  | switch runAfter cases default =>
    have hcases : ∀ cases : List (String × Actions),
        (cases.flatMap fun e => if e.2.isEmpty then [.emptyBranch name (.case e.1)] else [])
          = (cases.filter fun e => e.2.isEmpty).map fun e =>
              Diagnostic.emptyBranch name (.case e.1) := by
      intro cases
      induction cases with
      | nil => rfl
      | cons e rest ih =>
        rw [List.flatMap_cons, ih]
        cases hempty : e.2.isEmpty with
        | false => rw [List.filter_cons_of_neg (by simp [hempty])]; rfl
        | true => rw [List.filter_cons_of_pos (by exact hempty)]; rfl
    have hreports : (Action.switch runAfter cases default).reports name
        = if cases.isEmpty then [.noCases name] else [] := by
      cases cases with
      | nil => rfl
      | cons e rest => rfl
    rw [hreports, Action.groups, List.flatMap_append, List.flatMap_map, List.flatMap_singleton]
    simp only [Option.toList_some, Option.toList_none, ite_self, List.append_nil]
    rw [hcases]
    rfl
  | scope kind runAfter body => simp [Action.groups, Action.reports, Action.emptyParts]

/-- What an action runs after has a gap wherever a name is not declared. -/
theorem gaps_dependencyTasks (actions : Actions) (d : Declaration) :
    d.dependencyTasks.flatMap (Task.gaps actions)
      = (d.action.runAfter.filter fun k => k ∉ actions.names).map (.dependencyNotFound d.name) := by
  rw [Declaration.dependencyTasks]
  induction d.action.runAfter with
  | nil => rfl
  | cons k rest ih =>
    rw [List.map_cons, List.flatMap_cons, ih, Task.gaps, List.filter_cons]
    by_cases hk : k ∈ actions.names
    · simp [hk]
    · simp [hk]

/-- A report that something is empty is one of a gap. -/
theorem isGap_of_leave_mem_tasks {d : Declaration} {id : String} {r : Diagnostic}
    (h : .leave id r ∈ d.tasks) : r.isGap := by
  have hempty := isEmptiness_of_leave_mem_tasks h
  cases r with
  | emptyBranch action branch => rfl
  | emptyScope action kind => rfl
  | _ => exact hempty.elim

theorem gap?_opening (styles : StyleTable) (name : String) (a : Action) :
    (a.opening styles name).filterMap Stroke.gap? = a.reports name := by
  have hbox : ∀ title : Option String,
      ((title.map (Stroke.openBox name)).toList).filterMap Stroke.gap? = [] := by
    intro title
    cases title with
    | none => rfl
    | some title => rfl
  have hreports : ((a.reports name).map Stroke.report).filterMap Stroke.gap? = a.reports name := by
    rw [Action.reports.eq_def]
    split
    · rfl
    · rfl
  rw [Action.opening, List.filterMap_append, List.filterMap_append, hbox, hreports]
  rfl

theorem gap?_closing (name : String) (a : Action) :
    (a.closing name).filterMap Stroke.gap? = [] := by
  rw [Action.closing]
  cases a.boxTitle? name with
  | none => rfl
  | some title => rfl

/-- The start strokes warn if nothing starts. -/
theorem gap?_startStrokes (actions : Actions) :
    (startStrokes actions).filterMap Stroke.gap?
      = if startingNames actions = [] then [.noStartActions] else [] := by
  have harrows : ∀ names : List String,
      (names.map fun name => Stroke.connect startId (nodeId name) none "").filterMap Stroke.gap?
        = [] := by
    intro names
    refine List.filterMap_eq_nil_iff.mpr fun s hs => ?_
    obtain ⟨name, -, rfl⟩ := List.mem_map.mp hs
    rfl
  simp only [startStrokes, List.filterMap_append, harrows, List.isEmpty_iff, List.append_nil]
  split
  · rfl
  · rfl

variable {actions : Actions} {styles : StyleTable} {ts : List Task} {m : Memo} {t : Trip}

/-- A trip warns of the gaps of its tasks, and of those of the declarations it draws. -/
theorem Walks.gaps_perm (h : Walks actions styles ts m t)
    (hts : ∀ id r, .leave id r ∈ ts → r.isGap) :
    (t.strokes.filterMap Stroke.gap?).Perm
      (ts.flatMap (Task.gaps actions) ++ t.drawn.flatMap (Declaration.gaps actions)) := by
  have harrows : ∀ (m : Memo) (name dependency : String),
      (m.arrows name dependency).filterMap Stroke.gap? = [] := by
    intro m name dependency
    refine List.filterMap_eq_nil_iff.mpr fun s hs => ?_
    obtain ⟨source, -, rfl⟩ := List.mem_map.mp hs
    rfl
  have hdeclared : ∀ {name dependency : String} {d : Declaration},
      (Index.ofActions actions).1.lookup dependency = some d →
      Task.gaps actions (.depend name dependency) = [] := by
    intro name dependency d hd
    refine if_pos ?_
    by_contra hnone
    rw [Index.lookup_eq_none_iff.mpr hnone] at hd
    cases hd
  induction h with
  | nil m => exact List.Perm.refl _
  | wire _ ih | again _ _ _ ih =>
    exact ih fun id r hmem => hts id r (List.mem_cons_of_mem _ hmem)
  | @leave id r ts m t _ ih =>
    have hgap : (Stroke.report r).gap? = some r := if_pos (hts id r List.mem_cons_self)
    rw [Trip.strokes_prepend, List.singleton_append, List.filterMap_cons_some hgap]
    exact (ih fun id r hmem => hts id r (List.mem_cons_of_mem _ hmem)).cons r
  | @fresh d ts m before inside t declared _ _ _ _ ih₁ ih₂ ih₃ =>
    have hbefore := ih₁ (by simp [Declaration.dependencyTasks])
    have hinside := ih₂ fun id r hmem => isGap_of_leave_mem_tasks hmem
    have hrest := ih₃ fun id r hmem => hts id r (List.mem_cons_of_mem _ hmem)
    rw [gaps_dependencyTasks] at hbefore
    have hgaps : d.gaps actions
        = (d.action.runAfter.filter fun k => k ∉ actions.names).map (.dependencyNotFound d.name)
          ++ (d.action.reports d.name ++ d.tasks.flatMap (Task.gaps actions)) := by
      rw [gaps_tasks, Declaration.gaps]
    have hstrokes : (before.strokes
          ++ (d.action.opening styles d.name ++ inside.strokes ++ d.action.closing d.name)
          ++ [Stroke.report (.exitNodes d.name (d.exitsFrom inside.exits))]
          ++ t.strokes).filterMap Stroke.gap?
        = before.strokes.filterMap Stroke.gap? ++ d.action.reports d.name
          ++ inside.strokes.filterMap Stroke.gap? ++ t.strokes.filterMap Stroke.gap? := by
      have hreport : [Stroke.report (.exitNodes d.name (d.exitsFrom inside.exits))].filterMap
          Stroke.gap? = [] := rfl
      simp only [List.filterMap_append, gap?_opening, gap?_closing, hreport, List.nil_append,
        List.append_assoc]
    -- the gaps of an action are reported on both sides of those of what it runs after
    rw [Trip.strokes_prepend, hstrokes, Trip.drawn_prepend]
    refine List.perm_iff_count.mpr fun r => ?_
    have hb := hbefore.count_eq r
    have hi := hinside.count_eq r
    have hr := hrest.count_eq r
    simp only [List.flatMap_cons, List.flatMap_append, List.cons_append, hgaps, Task.gaps,
      List.nil_append, List.count_append] at hb hi hr ⊢
    omega
  | @unknown name dependency ts m t absent _ ih =>
    have hgap : Task.gaps actions (.depend name dependency)
        = [.dependencyNotFound name dependency] := if_neg (Index.lookup_eq_none_iff.mp absent)
    rw [Trip.strokes_prepend, List.flatMap_cons, hgap]
    exact (ih fun id r hmem => hts id r (List.mem_cons_of_mem _ hmem)).cons _
  | @met name dependency d state ts m t known _ _ ih =>
    have hreports : (state.reports name dependency).filterMap Stroke.gap? = [] := by
      cases state with
      | underway => rfl
      | done => rfl
    rw [Trip.strokes_prepend, List.filterMap_append, List.filterMap_append, hreports, harrows,
      List.flatMap_cons, hdeclared known]
    exact ih fun id r hmem => hts id r (List.mem_cons_of_mem _ hmem)
  | @force name dependency d ts m first t known _ _ _ ih₁ ih₂ =>
    have hfirst := ih₁ (by simp)
    have hrest := ih₂ fun id r hmem => hts id r (List.mem_cons_of_mem _ hmem)
    rw [Trip.strokes_prepend, List.filterMap_append, List.filterMap_append, harrows,
      List.append_nil, List.flatMap_cons, hdeclared known, Trip.drawn_prepend, List.flatMap_append]
    refine (hfirst.append hrest).trans ?_
    exact List.perm_append_comm_assoc _ _ _

/-! ## Diagrams -/

/-- Reports about lines warn of nothing. -/
theorem Canvas.filter_isGap (c : Canvas) (ss : List Stroke) :
    (c.reportsOfAll ss).filter Diagnostic.isGap = ss.filterMap Stroke.gap? := by
  have hline : ∀ r : Diagnostic, r.IsOfLine → Option.guard Diagnostic.isGap r = none := by
    intro r hr
    cases r with
    | classDefined className => rfl
    | connected source target note => rfl
    | subgraphStarted action title => rfl
    | subgraphEnded action title => rfl
    | _ => exact hr.elim
  rw [← List.filterMap_eq_filter, Canvas.filterMap_report? hline]
  refine List.filterMap_congr fun s _ => ?_
  cases s with
  | _ => rfl

/-- In a tree of distinct names the drawing warns of the gaps of the tree. -/
theorem Drawn.gaps_perm {config : Config} {c : Conversion} (h : Drawn config actions c t)
    (hd : actions.Distinct) :
    ((Canvas.blank.reportsOfAll (startStrokes actions ++ t.strokes)).filter Diagnostic.isGap).Perm
      actions.gaps := by
  have htasks : (rootTasks actions).flatMap (Task.gaps actions) = [] :=
    gaps_memberTasks actions _ _ _
  have hgaps := h.walks.gaps_perm fun id r hmem => absurd hmem leave_not_mem_memberTasks
  rw [htasks, List.nil_append] at hgaps
  rw [Canvas.filter_isGap, List.filterMap_append, gap?_startStrokes, Actions.gaps]
  exact (hgaps.trans ((h.drawn_perm hd).flatMap_right _)).append_left _

/-- No action is looked for where it is not, so none is missed. -/
theorem Drawn.code_ne {config : Config} {c : Conversion} (h : Drawn config actions c t)
    {r : Diagnostic} (hr : r ∈ c.reports) : r.code ≠ "W_ACTION_NOT_FOUND" := by
  have hkind : (Event.report r).IsPreliminary ∨ r.IsRemark ∨ r.IsOfLine :=
    (h.report_cases hr).imp_right (Or.imp_left (h.isRemark_of_report_mem r))
  cases r with
  | actionNotFound name => exact (hkind.elim id fun hkind => hkind.elim id id).elim
  | custom severity code message action =>
    exact (hkind.elim id fun hkind => hkind.elim id id).elim
  | _ => simp [Diagnostic.code]

/-- The warnings of a conversion. None is about an action that is not found in its group. If all
names of the tree are different and nothing is ignored, what is recorded after reading and indexing
warns, apart from cycles, of the gaps of the tree, once of each. -/
theorem convert_warnings (config : Config) (log : Log) (definition : Value) :
    ∃ recorded, (convert config log definition).1.entries = log.entries ++ recorded ∧
      (∀ r ∈ recorded, r.code ≠ "W_ACTION_NOT_FOUND") ∧
      ∀ entries, Definition.actions? definition = some entries →
        (Actions.ofEntries entries).1.Distinct → log.ignored = [] →
        ∀ c, (convert config log definition).2 = .ok c →
        ∃ later, recorded = Event.reports (Actions.ofEntries entries).2
              ++ (Index.ofActions (Actions.ofEntries entries).1).2 ++ later ∧
            (later.filter Diagnostic.isGap).Perm (Actions.ofEntries entries).1.gaps := by
  cases hentries : Definition.actions? definition with
  | none =>
    refine ⟨[], ?_, by simp, by simp⟩
    simp only [convert, hentries, List.append_nil]
  | some entries =>
    obtain ⟨t, ht, hevents⟩ := ofEntries_drawn config entries
    have hlog : (convert config log definition).1
        = log.recordAll (Conversion.ofEntries config entries).reports := by
      simp only [convert, hentries]
    refine ⟨(Conversion.ofEntries config entries).reports.filter log.accepts, by rw [hlog]; rfl,
      fun r hr => ht.code_ne (List.mem_filter.mp hr).1, ?_⟩
    rintro entries' heq hdist hignored c hc
    cases heq
    have hhalt : (Conversion.ofEntries config entries).halt? = none := by
      simp only [convert, hentries] at hc
      split at hc
      · cases hc
      · assumption
    rw [List.filter_eq_self.mpr fun r _ => by simp [Log.accepts, hignored]]
    refine ⟨_, ?_, ht.gaps_perm hdist⟩
    rw [Conversion.halt?, hevents] at hhalt
    obtain ⟨hread, -, hrest⟩ := Event.reports_append_of_halt? hhalt
    obtain ⟨hindexed, -, hdrawing⟩ := Event.reports_append_of_halt? hrest
    rw [Conversion.reports, hevents, hread, hindexed, Event.reports_map_report,
      Canvas.reports_drawAll hdrawing, List.append_assoc]

/-- The only gap of the sample is a case without actions. -/
theorem convert_warnings_sample : ∃ later,
    (convert {} ⟨[], []⟩ (definitionOf sampleEntries)).1.entries = later ∧
      later.filter Diagnostic.isGap = [.emptyBranch "Check" (.case "Open")] := by
  obtain ⟨recorded, hentries, -, hgaps⟩ :=
    convert_warnings {} ⟨[], []⟩ (definitionOf sampleEntries)
  obtain ⟨later, hlater, hperm⟩ := hgaps sampleEntries rfl
    (by rw [ofEntries_sample.1]; exact distinct_sample) rfl _ convert_sample.1
  have hgaps : sampleActions.gaps = [.emptyBranch "Check" (.case "Open")] := by decide
  have hindex : (Index.ofActions sampleActions).2 = [] := by decide
  rw [ofEntries_sample.1] at hlater hperm
  refine ⟨later, ?_, ?_⟩
  · rw [hentries, hlater, hindex]
    rfl
  · rw [hgaps] at hperm
    exact List.perm_singleton.mp hperm

end Diagram

end Flowchart
