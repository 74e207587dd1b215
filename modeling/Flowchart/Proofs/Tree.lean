import Mathlib.Data.List.Nodup
import Mathlib.Tactic.Common
import Flowchart.Action.Index

/-!
# The tree of declarations

What the walks rely on when they go from an action to the actions inside it:

* `Action.bodies` and `Declaration.children`, the groups inside an action and their members, with
  `children_mem_declarations`: the declarations of a tree are closed under going inside;
* `Actions.WellFormed`, a tree whose groups name their actions apart, and `Actions.Distinct`, a tree
  that does so as a whole;
* `Index.lookup_ofActions`, which declaration the index holds for a name.
-/

namespace Flowchart

/-! ## Groups inside an action -/

/-- The groups of actions inside an action, in order. -/
def Action.bodies (a : Action) : List Actions := a.branches.map Prod.snd

namespace Action

@[simp] theorem bodies_simple (kind : String) (runAfter : List String) (body : Actions) :
    (simple kind runAfter body).bodies = [body] := rfl

@[simp] theorem bodies_condition (runAfter : List String) (yes no : Actions) :
    (condition runAfter yes no).bodies = [yes, no] := rfl

@[simp] theorem bodies_scope (kind : ScopeKind) (runAfter : List String) (body : Actions) :
    (scope kind runAfter body).bodies = [body] := rfl

theorem mem_bodies_switch {runAfter : List String} {cases : List (String × Actions)}
    {default : Option Actions} {b : Actions} :
    b ∈ (switch runAfter cases default).bodies ↔ (∃ l, (l, b) ∈ cases) ∨ default = some b := by
  simp only [bodies, branches, List.map_append, List.map_map, List.mem_append, List.mem_map,
    Option.mem_toList, Option.map_eq_some_iff]
  constructor
  · rintro (⟨⟨l, b⟩, hcase, rfl⟩ | ⟨e, ⟨b, rfl, rfl⟩, rfl⟩)
    · exact Or.inl ⟨l, hcase⟩
    · exact Or.inr rfl
  · rintro (⟨l, hcase⟩ | rfl)
    · exact Or.inl ⟨(l, b), hcase, rfl⟩
    · exact Or.inr ⟨(Role.default, b), ⟨b, rfl, rfl⟩, rfl⟩

end Action

/-- The declarations in a group that stands at a path. -/
def Actions.children (path : List String) (g : Actions) : List Declaration :=
  g.map fun e => ⟨e.1, e.2, path, g⟩

/-- The declarations directly inside an action. -/
def Declaration.children (d : Declaration) : List Declaration :=
  d.action.bodies.flatMap (Actions.children (d.path ++ [d.name]))

theorem Actions.mem_children {path : List String} {g : Actions} {d : Declaration} :
    d ∈ g.children path ↔ ∃ n a, (n, a) ∈ g ∧ d = ⟨n, a, path, g⟩ := by
  simp only [Actions.children, List.mem_map, Prod.exists, eq_comm]

theorem Declaration.mem_children {d c : Declaration} :
    c ∈ d.children ↔ ∃ b ∈ d.action.bodies, c ∈ b.children (d.path ++ [d.name]) := by
  simp only [Declaration.children, List.mem_flatMap]

theorem Action.declarations_eq (path : List String) (a : Action) :
    a.declarations path = a.bodies.flatMap fun b => declarationsFrom path b b := by
  have hcases : ∀ cases : List (String × Actions),
      caseDeclarations path cases
        = (cases.map Prod.snd).flatMap fun b => declarationsFrom path b b := by
    intro cases
    induction cases with
    | nil => rfl
    | cons e rest ih => simp [caseDeclarations, ih]
  cases a with
  | simple kind runAfter body => simp [Action.declarations, bodies, branches]
  | condition runAfter yes no => simp [Action.declarations, bodies, branches]
  | switch runAfter cases default =>
    have hbodies : (cases.map fun e => (Role.case e.1, e.2)).map Prod.snd = cases.map Prod.snd := by
      simp
    cases default with
    | none => simp [Action.declarations, bodies, branches, hcases, Function.comp_def]
    | some default => simp [Action.declarations, bodies, branches, hcases, Function.comp_def]
  | scope kind runAfter body => simp [Action.declarations, bodies, branches]

theorem declarationsFrom_eq (path : List String) (container : Actions)
    (entries : List (String × Action)) :
    declarationsFrom path container entries
      = entries.flatMap fun e =>
          ⟨e.1, e.2, path, container⟩ :: e.2.declarations (path ++ [e.1]) := by
  induction entries with
  | nil => rfl
  | cons e rest ih => simp [declarationsFrom, ih]

theorem declarationsFrom_append (path : List String) (container : Actions)
    (entries rest : List (String × Action)) :
    declarationsFrom path container (entries ++ rest)
      = declarationsFrom path container entries ++ declarationsFrom path container rest := by
  simp only [declarationsFrom_eq, List.flatMap_append]

/-- A group inside an action is smaller than the action. -/
theorem Action.sizeOf_lt_of_mem_bodies {a : Action} {b : Actions} (h : b ∈ a.bodies) :
    sizeOf b < sizeOf a := by
  cases a with
  | simple kind runAfter body =>
    rw [bodies_simple, List.mem_singleton] at h
    rw [h, simple.sizeOf_spec]
    omega
  | condition runAfter yes no =>
    rw [bodies_condition, List.mem_pair] at h
    rw [condition.sizeOf_spec]
    rcases h with rfl | rfl
    · omega
    · omega
  | switch runAfter cases default =>
    rw [switch.sizeOf_spec]
    rcases mem_bodies_switch.mp h with ⟨l, hcase⟩ | rfl
    · have hentry := List.sizeOf_lt_of_mem hcase
      rw [Prod.mk.sizeOf_spec] at hentry
      omega
    · rw [Option.some.sizeOf_spec]
      omega
  | scope kind runAfter body =>
    rw [bodies_scope, List.mem_singleton] at h
    rw [h, scope.sizeOf_spec]
    omega

/-- Induction over groups: a group has the property if all groups inside its actions have it. -/
theorem Actions.induction {P : Actions → Prop}
    (h : ∀ g : Actions, (∀ n a, (n, a) ∈ g → ∀ b ∈ a.bodies, P b) → P g) (g : Actions) : P g := by
  apply h
  intro n a ha b hb
  have hsize : sizeOf b < sizeOf g := by
    have hbody := Action.sizeOf_lt_of_mem_bodies hb
    have hentry := List.sizeOf_lt_of_mem ha
    rw [Prod.mk.sizeOf_spec] at hentry
    omega
  exact Actions.induction h b
termination_by sizeOf g

/-! ## Declarations of a tree -/

/-- The declarations inside a declared action stand together in the list of the whole tree. -/
theorem declarationsFrom_sublist {path : List String} {container g : Actions} {d : Declaration}
    (hd : d ∈ declarationsFrom path container g) {b : Actions} (hb : b ∈ d.action.bodies) :
    (declarationsFrom (d.path ++ [d.name]) b b).Sublist (declarationsFrom path container g) := by
  induction g using Actions.induction generalizing path container with
  | h g ih =>
    rw [declarationsFrom_eq, List.mem_flatMap] at hd
    obtain ⟨⟨n, a⟩, hmem, hd⟩ := hd
    have hinside : (a.declarations (path ++ [n])).Sublist (declarationsFrom path container g) := by
      rw [declarationsFrom_eq]
      exact (List.sublist_cons_self _ _).trans
        (List.sublist_flatten_of_mem (List.mem_map_of_mem (f := fun e : String × Action =>
          (⟨e.1, e.2, path, container⟩ : Declaration) :: e.2.declarations (path ++ [e.1])) hmem))
    refine List.Sublist.trans ?_ hinside
    rw [Action.declarations_eq]
    -- the declaration is the member itself, or stands in one of the groups inside it
    rcases List.mem_cons.mp hd with rfl | hd
    · exact List.sublist_flatten_of_mem (List.mem_map_of_mem hb)
    · rw [Action.declarations_eq, List.mem_flatMap] at hd
      obtain ⟨b', hb', hd⟩ := hd
      exact (ih n a hmem b' hb' hd).trans (List.sublist_flatten_of_mem (List.mem_map_of_mem hb'))

theorem children_sublist (path : List String) (container g : Actions) :
    ((g.map fun e => (⟨e.1, e.2, path, container⟩ : Declaration))).Sublist
      (declarationsFrom path container g) := by
  rw [declarationsFrom_eq]
  induction g with
  | nil => exact List.Sublist.refl _
  | cons e rest ih =>
    rw [List.map_cons, List.flatMap_cons, List.cons_append]
    exact (ih.trans (List.sublist_append_right _ _)).cons_cons _

theorem root_mem_declarations {actions : Actions} {d : Declaration}
    (h : d ∈ actions.children []) : d ∈ actions.declarations :=
  (children_sublist [] actions actions).subset h

/-- Going inside an action never leaves the tree. -/
theorem children_mem_declarations {actions : Actions} {d c : Declaration}
    (hd : d ∈ actions.declarations) (hc : c ∈ d.children) : c ∈ actions.declarations := by
  obtain ⟨b, hb, hc⟩ := Declaration.mem_children.mp hc
  exact (declarationsFrom_sublist hd hb).subset ((children_sublist _ b b).subset hc)

/-- Induction over the declarations of a tree, from the outside to the inside. -/
theorem declarations_induction {actions : Actions} {P : Declaration → Prop}
    (root : ∀ d ∈ actions.children [], P d)
    (inside : ∀ d ∈ actions.declarations, P d → ∀ c ∈ d.children, P c) :
    ∀ d ∈ actions.declarations, P d := by
  -- the walk down the tree, from any group whose own members have the property
  have hfrom : ∀ (g container : Actions) (path : List String),
      (∀ d ∈ declarationsFrom path container g, d ∈ actions.declarations) →
      (∀ n a, (n, a) ∈ g → P ⟨n, a, path, container⟩) →
      ∀ d ∈ declarationsFrom path container g, P d := by
    intro g
    induction g using Actions.induction with
    | h g ih =>
      intro container path hsub hmembers d hd
      have hcut := hd
      rw [declarationsFrom_eq, List.mem_flatMap] at hcut
      obtain ⟨⟨n, a⟩, hmem, hcut⟩ := hcut
      have hself : (⟨n, a, path, container⟩ : Declaration) ∈ declarationsFrom path container g :=
        (children_sublist path container g).subset (List.mem_map_of_mem hmem)
      rcases List.mem_cons.mp hcut with rfl | hcut
      · exact hmembers n a hmem
      · rw [Action.declarations_eq, List.mem_flatMap] at hcut
        obtain ⟨b, hb, hcut⟩ := hcut
        refine ih n a hmem b hb b (path ++ [n]) ?_ ?_ d hcut
        · intro d' hd'
          exact hsub d' ((declarationsFrom_sublist hself hb).subset hd')
        · intro n' a' hmem'
          refine inside _ (hsub _ hself) (hmembers n a hmem) _ ?_
          exact Declaration.mem_children.mpr ⟨b, hb, Actions.mem_children.mpr ⟨n', a', hmem', rfl⟩⟩
  refine hfrom actions actions [] (fun d hd => hd) fun n a hmem => root _ ?_
  exact Actions.mem_children.mpr ⟨n, a, hmem, rfl⟩

/-- Induction over the declarations of a tree, from the inside to the outside. -/
theorem declarations_inside_out {actions : Actions} {P : Declaration → Prop}
    (h : ∀ d ∈ actions.declarations, (∀ c ∈ d.children, P c) → P d) :
    ∀ d ∈ actions.declarations, P d := by
  have hsize : ∀ d c : Declaration, c ∈ d.children → sizeOf c.action < sizeOf d.action := by
    intro d c hc
    obtain ⟨b, hb, hc⟩ := Declaration.mem_children.mp hc
    obtain ⟨n, a, hmem, rfl⟩ := Actions.mem_children.mp hc
    have hbody := Action.sizeOf_lt_of_mem_bodies hb
    have hentry := List.sizeOf_lt_of_mem hmem
    rw [Prod.mk.sizeOf_spec] at hentry
    show sizeOf a < sizeOf d.action
    omega
  intro d hd
  induction hn : sizeOf d.action using Nat.strongRecOn generalizing d with
  | ind n ih =>
    subst hn
    exact h d hd fun c hc => ih _ (hsize d c hc) c (children_mem_declarations hd hc) rfl

/-! ## Names -/

/-- A tree in which the actions of a group have different names. -/
def Actions.WellFormed (actions : Actions) : Prop :=
  ∀ d ∈ actions.declarations, d.container.keys.Nodup

/-- A tree in which all actions have different names. -/
def Actions.Distinct (actions : Actions) : Prop :=
  (actions.declarations.map Declaration.name).Nodup

/-- In a table that has each key once, a key leads to its entry. -/
theorem Table.lookup_of_mem {α : Type} {g : Table String α} (hg : g.keys.Nodup) {n : String} {a : α}
    (h : (n, a) ∈ g) : List.lookup n g = some a := by
  induction g with
  | nil => exact absurd h List.not_mem_nil
  | cons e rest ih =>
    obtain ⟨n', a'⟩ := e
    rw [Table.keys, List.map_cons, List.nodup_cons] at hg
    rcases List.mem_cons.mp h with heq | hrest
    · cases heq
      simp
    · have hne : n ≠ n' := fun heq => hg.1 (List.mem_map.mpr ⟨(n, a), hrest, heq⟩)
      rw [List.lookup_cons, beq_false_of_ne hne]
      exact ih hg.2 hrest

/-- In such a table a key has one entry. -/
theorem Table.eq_of_mem {α : Type} {g : Table String α} (hg : g.keys.Nodup) {n : String} {a a' : α}
    (h : (n, a) ∈ g) (h' : (n, a') ∈ g) : a = a' := by
  have hlookup := Table.lookup_of_mem hg h
  rw [Table.lookup_of_mem hg h', Option.some.injEq] at hlookup
  exact hlookup.symm

/-- A declared action is a member of the group that declares it. -/
theorem mem_container {actions : Actions} :
    ∀ d ∈ actions.declarations, (d.name, d.action) ∈ d.container := by
  apply declarations_induction
  · intro d hd
    obtain ⟨n, a, hmem, rfl⟩ := Actions.mem_children.mp hd
    exact hmem
  · intro d _ _ c hc
    obtain ⟨b, _, hc⟩ := Declaration.mem_children.mp hc
    obtain ⟨n, a, hmem, rfl⟩ := Actions.mem_children.mp hc
    exact hmem

/-- In a well-formed tree a name leads to its declaration in the group that has it. -/
theorem Actions.WellFormed.lookup_container {actions : Actions} (hw : actions.WellFormed)
    {d : Declaration} (hd : d ∈ actions.declarations) :
    d.container.lookup d.name = some d.action :=
  Table.lookup_of_mem (hw d hd) (mem_container d hd)

/-- The group that holds a declared action is the tree itself or the body of a declared action. -/
theorem container_cases {actions : Actions} :
    ∀ d ∈ actions.declarations, d ∈ actions.children [] ∨
      ∃ e ∈ actions.declarations, d ∈ e.children := by
  apply declarations_induction
  · exact fun d hd => Or.inl hd
  · exact fun d hd _ c hc => Or.inr ⟨d, hd, hc⟩

theorem Actions.Distinct.wellFormed {actions : Actions} (h : actions.Distinct) :
    actions.WellFormed := by
  have hgroup : ∀ (path : List String) (b : Actions),
      (declarationsFrom path b b).Sublist actions.declarations → b.keys.Nodup := by
    intro path b hsub
    have hkeys := ((children_sublist path b b).trans hsub).map Declaration.name
    rw [List.map_map] at hkeys
    exact List.Nodup.sublist hkeys h
  intro d hd
  rcases container_cases d hd with hroot | ⟨e, he, hin⟩
  · obtain ⟨n, a, _, rfl⟩ := Actions.mem_children.mp hroot
    exact hgroup [] actions (List.Sublist.refl _)
  · obtain ⟨b, hb, hin⟩ := Declaration.mem_children.mp hin
    obtain ⟨n, a, _, rfl⟩ := Actions.mem_children.mp hin
    exact hgroup _ b (declarationsFrom_sublist he hb)

/-- In a tree of distinct names a name has one declaration. -/
theorem Actions.Distinct.eq_of_name {actions : Actions} (h : actions.Distinct)
    {d e : Declaration} (hd : d ∈ actions.declarations) (he : e ∈ actions.declarations)
    (hname : d.name = e.name) : d = e :=
  List.inj_on_of_nodup_map h hd he hname

/-! ## The index -/

/-- Of the declarations of a name the last one holds, or the one that was there before. -/
theorem Index.lookup_addAll (index : Index) (ds : List Declaration) (n : String) :
    (index.addAll ds).1.lookup n = (ds.reverse.find? (·.name == n)).or (index.lookup n) := by
  induction ds generalizing index with
  | nil => rfl
  | cons d rest ih =>
    have hput : (index.add d).1.lookup n
        = ([d].find? (·.name == n)).or (index.lookup n) := by
      rw [Index.add, Table.lookup_put]
      by_cases h : n = d.name
      · simp [h]
      · simp [h, Ne.symm h]
    -- a later declaration is found earlier in the reversed list
    rw [List.reverse_cons, List.find?_append, Option.or_assoc, ← hput]
    exact ih (index.add d).1

/-- The index holds the last declaration of a name in the tree. -/
theorem Index.lookup_ofActions (actions : Actions) (n : String) :
    (Index.ofActions actions).1.lookup n
      = actions.declarations.reverse.find? (·.name == n) := by
  rw [Index.ofActions, Index.lookup_addAll, List.lookup_nil, Option.or_none]

theorem Index.mem_declarations {actions : Actions} {n : String} {d : Declaration}
    (h : (Index.ofActions actions).1.lookup n = some d) :
    d ∈ actions.declarations ∧ d.name = n := by
  rw [Index.lookup_ofActions] at h
  exact ⟨List.mem_reverse.mp (List.mem_of_find?_eq_some h), by simpa using List.find?_some h⟩

/-- Every declared name is in the index. -/
theorem Index.lookup_isSome {actions : Actions} {d : Declaration}
    (hd : d ∈ actions.declarations) :
    ((Index.ofActions actions).1.lookup d.name).isSome := by
  rw [Index.lookup_ofActions, List.find?_isSome]
  exact ⟨d, List.mem_reverse.mpr hd, beq_self_eq_true d.name⟩

end Flowchart
