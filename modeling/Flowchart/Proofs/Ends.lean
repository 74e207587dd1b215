import Flowchart.Proofs.Coverage

/-!
# Where actions end

The exit nodes of an action by recursion on the action alone, without a walk.

* `Action.ends` is this recursion. It has no memory, so it cannot depend on which action a walk
  comes to first;
* `ends_ne_nil`: an action ends somewhere, unless a switch inside it has nothing to choose from;
* `exitsFrom_tasks`: if every visit gave what the recursion gives, the tasks of an action would end
  where the recursion says.
-/

namespace Flowchart

open Diagram

/-! ## The recursion -/

mutual

/-- The exit nodes of an action of this name. An action without actions inside ends at its own node,
and so does an empty branch or case; an empty default branch is no way out. -/
def Action.ends (name : String) : Action → List String
  | .simple _ _ body => unique (if body.isEmpty then [nodeId name] else groupEnds body)
  | .condition _ yes no =>
    unique ((if yes.isEmpty then [nodeId name] else groupEnds yes)
      ++ (if no.isEmpty then [nodeId name] else groupEnds no))
  | .switch _ cases none => unique (caseEnds name cases)
  | .switch _ cases (some default) => unique (caseEnds name cases ++ groupEnds default)
  | .scope _ _ body => unique (if body.isEmpty then [nodeId name] else groupEnds body)
termination_by structural a => a

/-- The exit nodes of the actions of a group, one after another. -/
def groupEnds : List (String × Action) → List String
  | [] => []
  | (name, action) :: rest => action.ends name ++ groupEnds rest
termination_by structural entries => entries

/-- The exit nodes of the cases of a switch of this name. -/
def caseEnds (name : String) : List (String × List (String × Action)) → List String
  | [] => []
  | (_, body) :: rest =>
    (if body.isEmpty then [nodeId name] else groupEnds body) ++ caseEnds name rest
termination_by structural cases => cases

end

/-- The exit nodes of a part of an action which ends at the node of the action if it is empty. -/
def partEnds (name : String) (body : Actions) : List String :=
  if body.isEmpty then [nodeId name] else groupEnds body

theorem groupEnds_eq (g : List (String × Action)) :
    groupEnds g = g.flatMap fun e => e.2.ends e.1 := by
  induction g with
  | nil => rfl
  | cons e rest ih => rw [groupEnds, ih, List.flatMap_cons]

theorem caseEnds_eq (name : String) (cases : List (String × List (String × Action))) :
    caseEnds name cases = cases.flatMap fun e => partEnds name e.2 := by
  induction cases with
  | nil => rfl
  | cons e rest ih => rw [caseEnds, ih, List.flatMap_cons, partEnds]

/-- The default branch adds the ends of its actions, if there are any. -/
theorem Action.ends_switch (name : String) (runAfter : List String)
    (cases : List (String × List (String × Action))) (default : Option (List (String × Action))) :
    (Action.switch runAfter cases default).ends name
      = unique ((cases.flatMap fun e => partEnds name e.2) ++ groupEnds (default.getD [])) := by
  rw [← caseEnds_eq]
  cases default with
  | none => rw [Action.ends, Option.getD_none, groupEnds, List.append_nil]
  | some default => rw [Action.ends, Option.getD_some]

theorem Action.nodup_ends (name : String) (a : Action) : (a.ends name).Nodup := by
  cases a with
  | switch runAfter cases default =>
    rw [Action.ends_switch]
    exact nodup_unique _
  | _ =>
    rw [Action.ends]
    exact nodup_unique _

/-! ## Actions that end somewhere -/

/-- A switch with neither a case nor an action in its default branch. -/
def Action.isBare : Action → Bool
  | .switch _ [] none | .switch _ [] (some []) => true
  | _ => false

/-- A tree without bare switches. -/
def Actions.Ending (actions : Actions) : Prop := ∀ d ∈ actions.declarations, d.action.isBare = false

theorem partEnds_ne_nil (name : String) {body : Actions}
    (h : ∀ e ∈ body, e.2.ends e.1 ≠ []) : partEnds name body ≠ [] := by
  cases body with
  | nil => exact List.cons_ne_nil _ _
  | cons e rest =>
    rw [partEnds, List.isEmpty_cons, if_neg Bool.false_ne_true, groupEnds_eq, List.flatMap_cons]
    exact List.append_ne_nil_of_left_ne_nil (h e List.mem_cons_self) _

/-- An action ends somewhere if the actions inside it do. -/
theorem Action.ends_ne_nil_of_bodies {name : String} {a : Action} (ha : a.isBare = false)
    (h : ∀ b ∈ a.bodies, ∀ e ∈ b, e.2.ends e.1 ≠ []) : a.ends name ≠ [] := by
  cases a with
  | simple kind runAfter body =>
    have hbody := partEnds_ne_nil name (h body (.head _))
    rw [Action.ends, Ne, unique_eq_nil]
    exact hbody
  | condition runAfter yes no =>
    have hyes := partEnds_ne_nil name (h yes (.head _))
    rw [Action.ends, Ne, unique_eq_nil]
    exact List.append_ne_nil_of_left_ne_nil hyes _
  | switch runAfter cases default =>
    rw [ends_switch, Ne, unique_eq_nil]
    cases cases with
    | nil =>
      cases default with
      | none => cases ha
      | some default =>
        cases default with
        | nil => cases ha
        | cons e rest =>
          exact partEnds_ne_nil name (h (e :: rest) (mem_bodies_switch.mpr (Or.inr rfl)))
    | cons e rest =>
      have hcase := partEnds_ne_nil name
        (h e.2 (mem_bodies_switch.mpr (Or.inl ⟨e.1, List.mem_cons_self⟩)))
      rw [List.flatMap_cons, List.append_assoc]
      exact List.append_ne_nil_of_left_ne_nil hcase _
  | scope kind runAfter body =>
    have hbody := partEnds_ne_nil name (h body (.head _))
    rw [Action.ends, Ne, unique_eq_nil]
    exact hbody

theorem Actions.Ending.ends_ne_nil {actions : Actions} (h : actions.Ending) :
    ∀ d ∈ actions.declarations, d.action.ends d.name ≠ [] := by
  apply declarations_inside_out
  intro d hd ih
  refine Action.ends_ne_nil_of_bodies (h d hd) fun b hb e he => ?_
  refine ih ⟨e.1, e.2, d.path ++ [d.name], b⟩ (Declaration.mem_children.mpr ⟨b, hb, ?_⟩)
  exact Actions.mem_children.mpr ⟨e.1, e.2, he, rfl⟩

namespace Diagram

/-! ## The ends of tasks -/

/-- The exit nodes that a task should give. -/
def Task.ends : Task → List String
  | wire _ _ _ _ | depend _ _ => []
  | leave id _ => [id]
  | visit d => d.action.ends d.name

/-- The exit nodes that tasks should give one after another. -/
def endsOf (ts : List Task) : List String := ts.flatMap Task.ends

theorem endsOf_memberTasks (w : Wiring) (isFirst : Bool) (path : List String) (g : Actions)
    (entries : List (String × Action)) :
    endsOf (memberTasks w isFirst (entries.map fun e => ⟨e.1, e.2, path, g⟩))
      = groupEnds entries := by
  have hwire : ∀ (b : Bool) (n : String), endsOf (w.tasks b n) = [] := by
    intro b n
    rw [Wiring.tasks]
    split
    · split
      · rfl
      · rfl
    · rfl
  induction entries generalizing isFirst with
  | nil => rfl
  | cons e rest ih =>
    have hrest := ih false
    have hfirst := hwire isFirst e.1
    simp only [endsOf] at hrest hfirst ⊢
    rw [List.map_cons, memberTasks, List.flatMap_append, List.flatMap_cons, hrest, hfirst,
      groupEnds, List.nil_append, Task.ends]

/-- A group whose emptiness is reported ends like a part of the action, any other one like its
actions. -/
theorem endsOf_groupTasks (path : List String) (name : String) (g : Group) :
    endsOf (g.tasks path (nodeId name))
      = if g.whenEmpty.isSome then partEnds name g.actions else groupEnds g.actions := by
  cases hempty : g.actions.isEmpty with
  | false =>
    simp only [Group.tasks, hempty, Actions.children, endsOf_memberTasks, partEnds,
      Bool.false_eq_true, if_false, ite_self]
  | true =>
    rw [List.isEmpty_iff] at hempty
    cases hreport : g.whenEmpty with
    | none => simp [Group.tasks, hempty, hreport, endsOf, groupEnds]
    | some r => simp [Group.tasks, hempty, hreport, endsOf, partEnds, Task.ends]

theorem endsOf_tasks (d : Declaration) :
    endsOf d.tasks = (d.action.groups d.name).flatMap fun g =>
      if g.whenEmpty.isSome then partEnds d.name g.actions else groupEnds g.actions := by
  rw [Declaration.tasks, endsOf, List.flatMap_assoc]
  refine List.flatMap_congr fun g _ => ?_
  exact endsOf_groupTasks (d.path ++ [d.name]) d.name g

/-- An action ends where its tasks do, if all actions inside it end somewhere. -/
theorem exitsFrom_tasks {d : Declaration} (h : ∀ c ∈ d.children, c.action.ends c.name ≠ []) :
    d.exitsFrom (endsOf d.tasks) = d.action.ends d.name := by
  have hbodies : ∀ b ∈ d.action.bodies, ∀ e ∈ b, e.2.ends e.1 ≠ [] := fun b hb e he =>
    h ⟨e.1, e.2, d.path ++ [d.name], b⟩
      (Declaration.mem_children.mpr ⟨b, hb, Actions.mem_children.mpr ⟨e.1, e.2, he, rfl⟩⟩)
  rw [endsOf_tasks]
  obtain ⟨name, action, path, container⟩ := d
  cases action with
  | simple kind runAfter body =>
    -- the walk asks for exits, the recursion for actions: the same, as each of them ends somewhere
    have hempty : (groupEnds body).isEmpty = body.isEmpty := by
      cases body with
      | nil => rfl
      | cons e rest =>
        have hends := partEnds_ne_nil name (hbodies (e :: rest) (.head _))
        simpa [partEnds] using hends
    simp [Declaration.exitsFrom, Action.groups, Action.endsAtNode, Action.ends, hempty]
  | condition runAfter yes no =>
    simp [Declaration.exitsFrom, Action.groups, Action.endsAtNode, Action.ends, partEnds]
  | switch runAfter cases default =>
    simp [Declaration.exitsFrom, Action.groups, Action.endsAtNode, Action.ends_switch,
      List.flatMap_map]
  | scope kind runAfter body =>
    -- an empty scope has reported its own node already, so there are always exits inside
    have hends := partEnds_ne_nil name (hbodies body (.head _))
    rw [Ne, ← List.isEmpty_iff, Bool.not_eq_true] at hends
    simp only [Declaration.exitsFrom, Action.groups, List.flatMap_cons, List.flatMap_nil,
      List.append_nil, Option.isSome_some, if_true, hends, Bool.and_false, Bool.false_eq_true,
      if_false]
    rfl

end Diagram

end Flowchart
