import Flowchart.Proofs.Exits

/-!
# The arrows of a tree

Which arrows a diagram should have, read off the tree of its actions.

* `Action.Leads` says which of the actions inside an action its node leads to, and `Actions.Arrow`
  which arrows a tree has;
* `leads_iff_reaches` and `wire_mem_tasks`: the groups inside an action ask for the arrows that it
  leads along;
* `arrow_iff_asked`: beside the arrows from the start node, the arrows of a tree are those that the
  tasks of its actions ask for.
-/

namespace Flowchart

open Diagram

/-! ## What the tree asks for -/

/-- The node of an action leads to the action `child` inside it, along an arrow with this text. -/
inductive Action.Leads : Action → String → Option String → Prop where
  | step {kind : String} {runAfter : List String} {body : Actions} {child : String}
      (h : child ∈ body.keys) : Leads (.simple kind runAfter body) child none
  | scope {kind : ScopeKind} {runAfter : List String} {body : Actions} {child : String}
      (h : body.keys.head? = some child) : Leads (.scope kind runAfter body) child none
  | yes {runAfter : List String} {yes no : Actions} {child : String}
      (h : yes.keys.head? = some child) : Leads (.condition runAfter yes no) child (some "Yes")
  | no {runAfter : List String} {yes no : Actions} {child : String}
      (h : no.keys.head? = some child) : Leads (.condition runAfter yes no) child (some "No")
  | case {runAfter : List String} {cases : List (String × Actions)} {default : Option Actions}
      {label child : String} {body : Actions} (hcase : (label, body) ∈ cases)
      (h : body.keys.head? = some child) :
      Leads (.switch runAfter cases default) child (some (displayName label))
  /-- Unlike a case, the default branch has all of its actions wired. -/
  | default {runAfter : List String} {cases : List (String × Actions)} {default : Actions}
      {child : String} (h : child ∈ default.keys) :
      Leads (.switch runAfter cases (some default)) child (some "Default")

/-- The arrows of a tree, from one node to another under a text. -/
inductive Actions.Arrow (actions : Actions) : String → String → Option String → Prop where
  | start {name : String} {action : Action} (h : (name, action) ∈ actions)
      (first : action.runAfter = []) : Arrow actions startId (nodeId name) none
  | inside {d : Declaration} {child : String} {text : Option String}
      (hd : d ∈ actions.declarations) (h : d.action.Leads child text) :
      Arrow actions (nodeId d.name) (nodeId child) text
  | after {d e : Declaration} {exit : String} (hd : d ∈ actions.declarations)
      (he : e ∈ actions.declarations) (h : e.name ∈ d.action.runAfter)
      (hexit : exit ∈ e.action.ends e.name) : Arrow actions exit (nodeId d.name) none

namespace Diagram

/-! ## What the tasks ask for -/

/-- The actions of a group that an arrow leads to. -/
def Group.Reaches (g : Group) (name : String) : Prop :=
  (g.reach = .every ∧ name ∈ g.actions.keys) ∨
    (g.reach = .first ∧ g.actions.keys.head? = some name)

theorem wire_mem_wiringTasks {w : Wiring} {id : String} (hentry : w.entry = some id)
    {isFirst : Bool} {name source target note : String} {text : Option String} :
    .wire source target text note ∈ w.tasks isFirst name ↔
      (source = id ∧ text = w.text ∧ note = w.note) ∧ target = name ∧
        (w.reach = .every ∨ (w.reach = .first ∧ isFirst)) := by
  rw [Wiring.tasks, hentry]
  dsimp only
  split
  · rename_i hreach
    simp only [List.mem_singleton, Task.wire.injEq, hreach, and_true]
    grind
  · rename_i hreach
    simp only [List.not_mem_nil, hreach, and_false]

theorem wire_mem_memberTasks {w : Wiring} {id : String} (hentry : w.entry = some id)
    (isFirst : Bool) (ds : List Declaration) {source target note : String} {text : Option String} :
    .wire source target text note ∈ memberTasks w isFirst ds ↔
      (source = id ∧ text = w.text ∧ note = w.note) ∧
        ((w.reach = .every ∧ target ∈ ds.map Declaration.name) ∨
          (w.reach = .first ∧ isFirst ∧ (ds.map Declaration.name).head? = some target)) := by
  induction ds generalizing isFirst with
  | nil => simp [memberTasks]
  | cons d rest ih =>
    rw [memberTasks, List.mem_append, List.mem_cons, ih false, wire_mem_wiringTasks hentry]
    simp only [List.map_cons, List.mem_cons, List.head?_cons, Option.some.injEq, reduceCtorEq,
      false_or, Bool.false_eq_true, false_and, and_false, or_false]
    grind

theorem wire_mem_groupTasks {g : Group} {path : List String} {id source target note : String}
    {text : Option String} :
    .wire source target text note ∈ g.tasks path id ↔
      (source = id ∧ text = g.text ∧ note = g.note) ∧ g.Reaches target := by
  have hnames : (g.actions.children path).map Declaration.name = g.actions.keys := by
    rw [Actions.children, List.map_map]
    rfl
  cases hempty : g.actions.isEmpty with
  | false =>
    simp only [Group.tasks, hempty]
    rw [wire_mem_memberTasks rfl, hnames]
    simp only [true_and, Group.Reaches]
  | true =>
    have hkeys : g.actions.keys = [] := by
      rw [List.isEmpty_iff.mp hempty]
      rfl
    have hnone : .wire source target text note ∉ g.tasks path id := by
      cases hreport : g.whenEmpty with
      | none => simp [Group.tasks, hempty, hreport]
      | some r => simp [Group.tasks, hempty, hreport]
    simp [hnone, Group.Reaches, hkeys]

/-- An action leads to what its groups have arrows to. -/
theorem leads_iff_reaches {a : Action} {name child : String} {text : Option String} :
    a.Leads child text ↔ ∃ g ∈ a.groups name, text = g.text ∧ g.Reaches child := by
  constructor
  · intro h
    cases h with
    | step h => exact ⟨_, .head _, rfl, Or.inl ⟨rfl, h⟩⟩
    | scope h => exact ⟨_, .head _, rfl, Or.inr ⟨rfl, h⟩⟩
    | yes h => exact ⟨_, .head _, rfl, Or.inr ⟨rfl, h⟩⟩
    | no h => exact ⟨_, .tail _ (.head _), rfl, Or.inr ⟨rfl, h⟩⟩
    | case hcase h =>
      exact ⟨_, List.mem_append_left _ (List.mem_map_of_mem hcase), rfl, Or.inr ⟨rfl, h⟩⟩
    | default h =>
      exact ⟨_, List.mem_append_right _ List.mem_cons_self, rfl, Or.inl ⟨rfl, h⟩⟩
  · rintro ⟨g, hg, rfl, hreach⟩
    cases a with
    | simple kind runAfter body =>
      simp only [Action.groups, List.mem_singleton] at hg
      subst hg
      simp only [Group.Reaches, true_and, reduceCtorEq, false_and, or_false] at hreach
      exact .step hreach
    | condition runAfter yes no =>
      simp only [Action.groups, List.mem_cons, List.not_mem_nil, or_false] at hg
      rcases hg with rfl | rfl
      · simp only [Group.Reaches, true_and, reduceCtorEq, false_and, false_or] at hreach
        exact .yes hreach
      · simp only [Group.Reaches, true_and, reduceCtorEq, false_and, false_or] at hreach
        exact .no hreach
    | switch runAfter cases default =>
      simp only [Action.groups, List.mem_append, List.mem_map, List.mem_singleton] at hg
      rcases hg with ⟨⟨label, body⟩, hcase, rfl⟩ | rfl
      · simp only [Group.Reaches, true_and, reduceCtorEq, false_and, false_or] at hreach
        exact .case hcase hreach
      · -- an absent default branch is an empty group, which reaches nothing
        simp only [Group.Reaches, true_and, reduceCtorEq, false_and, or_false] at hreach
        cases default with
        | none => exact absurd hreach List.not_mem_nil
        | some default => exact .default hreach
    | scope kind runAfter body =>
      simp only [Action.groups, List.mem_singleton] at hg
      subst hg
      simp only [Group.Reaches, true_and, reduceCtorEq, false_and, false_or] at hreach
      exact .scope hreach

/-- The tasks of an action ask for the arrows that it leads along, and for no others. -/
theorem wire_mem_tasks {d : Declaration} {source target : String} {text : Option String} :
    (∃ note, .wire source target text note ∈ d.tasks) ↔
      source = nodeId d.name ∧ d.action.Leads target text := by
  simp only [Declaration.tasks, List.mem_flatMap, wire_mem_groupTasks]
  rw [leads_iff_reaches]
  constructor
  · rintro ⟨note, g, hg, ⟨hsource, htext, -⟩, hreach⟩
    exact ⟨hsource, g, hg, htext, hreach⟩
  · rintro ⟨hsource, g, hg, htext, hreach⟩
    exact ⟨g.note, g, hg, ⟨hsource, htext, rfl⟩, hreach⟩

section Asked

variable {actions : Actions} {source target : String} {text : Option String}

variable (actions source target text) in
/-- The task asks for this arrow. An action that runs after another is reached from all nodes that
the other one ends at. -/
def Task.Asks : Task → Prop
  | wire s n x _ => source = s ∧ target = nodeId n ∧ text = x
  | leave _ _ | visit _ => False
  | depend name dependency => ∃ e ∈ actions.declarations, e.name = dependency ∧
      source ∈ e.action.ends e.name ∧ target = nodeId name ∧ text = none

variable (actions source target text) in
/-- Some of the tasks ask for this arrow. -/
def Asked (ts : List Task) : Prop := ∃ task ∈ ts, task.Asks actions source target text

theorem asked_cons {task : Task} {ts : List Task} :
    Asked actions source target text (task :: ts) ↔
      task.Asks actions source target text ∨ Asked actions source target text ts :=
  List.exists_mem_cons_iff _ _ _

theorem asked_dependencyTasks {d : Declaration} :
    Asked actions source target text d.dependencyTasks ↔
      ∃ e ∈ actions.declarations, e.name ∈ d.action.runAfter ∧ source ∈ e.action.ends e.name ∧
        target = nodeId d.name ∧ text = none := by
  simp only [Asked, Declaration.dependencyTasks, List.mem_map, exists_exists_and_eq_and, Task.Asks]
  constructor
  · rintro ⟨k, hk, e, he, rfl, hsource, htarget, htext⟩
    exact ⟨e, he, hk, hsource, htarget, htext⟩
  · rintro ⟨e, he, hk, hsource, htarget, htext⟩
    exact ⟨e.name, hk, e, he, rfl, hsource, htarget, htext⟩

theorem asked_tasks {d : Declaration} :
    Asked actions source target text d.tasks ↔
      ∃ child, source = nodeId d.name ∧ d.action.Leads child text ∧ target = nodeId child := by
  constructor
  · rintro ⟨task, htask, hasks⟩
    cases task with
    | wire s n x note =>
      obtain ⟨rfl, rfl, rfl⟩ := hasks
      obtain ⟨hsource, hleads⟩ := wire_mem_tasks.mp ⟨note, htask⟩
      exact ⟨n, hsource, hleads, rfl⟩
    | leave id r => exact absurd hasks not_false
    | visit c => exact absurd hasks not_false
    | depend name dependency => exact absurd htask depend_not_mem_tasks
  · rintro ⟨child, hsource, hleads, rfl⟩
    obtain ⟨note, hmem⟩ := wire_mem_tasks.mpr ⟨hsource, hleads⟩
    exact ⟨_, hmem, rfl, rfl, rfl⟩

/-- The arrows of a tree are those from the start node and those that its actions ask for. -/
theorem arrow_iff_asked :
    actions.Arrow source target text ↔
      (∃ name ∈ startingNames actions, source = startId ∧ target = nodeId name ∧ text = none) ∨
        ∃ d ∈ actions.declarations, Asked actions source target text d.dependencyTasks ∨
          Asked actions source target text d.tasks := by
  simp only [asked_dependencyTasks, asked_tasks, mem_startingNames]
  constructor
  · intro h
    cases h with
    | start h first => exact Or.inl ⟨_, ⟨_, h, first⟩, rfl, rfl, rfl⟩
    | @inside d child _ hd h => exact Or.inr ⟨d, hd, Or.inr ⟨child, rfl, h, rfl⟩⟩
    | @after d e _ hd he h hexit => exact Or.inr ⟨d, hd, Or.inl ⟨e, he, h, hexit, rfl, rfl⟩⟩
  · rintro (⟨name, ⟨a, h, first⟩, rfl, rfl, rfl⟩ | ⟨d, hd, ⟨e, he, h, hexit, rfl, rfl⟩ |
      ⟨child, rfl, h, rfl⟩⟩)
    · exact .start h first
    · exact .after hd he h hexit
    · exact .inside hd h

end Asked

end Diagram

end Flowchart
