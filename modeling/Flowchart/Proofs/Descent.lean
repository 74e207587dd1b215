import Mathlib.Logic.Relation
import Flowchart.Proofs.Memory
import Flowchart.Proofs.Tree

/-!
# Actions inside actions

Which declarations of a tree stand around which, and which stand next to each other.

* `Declaration.Holds` says that a declaration is another one or somewhere inside it; in a tree of
  distinct names the path of a declaration says so too, by `mem_path_iff_holds`;
* `Declaration.Encloses` leaves the declaration itself out;
* `Actions.HasGroup` are the groups of a tree: `HasGroup.exists_path` says where their members are
  declared;
* `sibling_mem_declarations`: the members of the group that declares an action are declared next to
  it, and `Actions.Distinct.eq_sibling` finds each of them by its name;
* `Actions.Neighborly` is a tree in which actions run after their siblings only.
-/

namespace Flowchart

/-! ## Descent -/

/-- The declaration `e` is `d` or stands somewhere inside it. -/
def Declaration.Holds : Declaration → Declaration → Prop :=
  Relation.ReflTransGen fun d c => c ∈ d.children

theorem Declaration.path_of_mem_children {d c : Declaration} (h : c ∈ d.children) :
    c.path = d.path ++ [d.name] := by
  obtain ⟨b, -, hc⟩ := mem_children.mp h
  obtain ⟨n, a, -, rfl⟩ := Actions.mem_children.mp hc
  rfl

theorem path_of_root {actions : Actions} {d : Declaration} (h : d ∈ actions.children []) :
    d.path = [] := by
  obtain ⟨n, a, -, rfl⟩ := Actions.mem_children.mp h
  rfl

/-- Whatever a declaration of a tree holds is declared in the tree. -/
theorem Declaration.Holds.mem_declarations {actions : Actions} {d e : Declaration} (h : d.Holds e)
    (hd : d ∈ actions.declarations) : e ∈ actions.declarations := by
  induction h with
  | refl => exact hd
  | tail _ hc ih => exact children_mem_declarations ih hc

/-- In a tree of distinct names a declaration stands directly inside one other only. -/
theorem Actions.Distinct.eq_of_mem_children {actions : Actions} (hdist : actions.Distinct)
    {d e c : Declaration} (hd : d ∈ actions.declarations) (he : e ∈ actions.declarations)
    (hc : c ∈ d.children) (hc' : c ∈ e.children) : d = e := by
  have hpath : d.path ++ [d.name] = e.path ++ [e.name] := by
    rw [← Declaration.path_of_mem_children hc, Declaration.path_of_mem_children hc']
  exact hdist.eq_of_name hd he (List.singleton_inj.mp (List.append_inj' hpath rfl).2)

/-- In a tree of distinct names the path of a declaration and its own name are the names of those
that hold it. -/
theorem mem_path_iff_holds {actions : Actions} (hdist : actions.Distinct) {d : Declaration}
    (hd : d ∈ actions.declarations) :
    ∀ e ∈ actions.declarations, d.name ∈ e.path ++ [e.name] ↔ d.Holds e := by
  have hself : ∀ e ∈ actions.declarations, d.name = e.name → d.Holds e := fun e he hname =>
    hdist.eq_of_name hd he hname ▸ Relation.ReflTransGen.refl
  apply declarations_induction
  · intro e he
    rw [path_of_root he, List.nil_append, List.mem_singleton]
    refine ⟨hself e (root_mem_declarations he), fun h => ?_⟩
    -- a declaration at the top is inside no other
    rcases Relation.ReflTransGen.cases_tail h with rfl | ⟨b, -, hb⟩
    · rfl
    · have hpath := Declaration.path_of_mem_children hb
      rw [path_of_root he] at hpath
      simp at hpath
  · intro b hb ih c hc
    have hpath := Declaration.path_of_mem_children hc
    rw [List.mem_append, List.mem_singleton, hpath, ih]
    constructor
    · rintro (h | hname)
      · exact h.tail hc
      · exact hself c (children_mem_declarations hb hc) hname
    · intro h
      rcases Relation.ReflTransGen.cases_tail h with rfl | ⟨b', hb', hc'⟩
      · exact Or.inr rfl
      · have heq := hdist.eq_of_mem_children (Declaration.Holds.mem_declarations hb' hd) hb hc' hc
        exact Or.inl (heq ▸ hb')

namespace Declaration

/-- The declaration `e` stands somewhere inside `d`. -/
def Encloses : Declaration → Declaration → Prop :=
  Relation.TransGen fun d c => c ∈ d.children

variable {d e : Declaration}

theorem Encloses.holds (h : d.Encloses e) : d.Holds e := h.to_reflTransGen

theorem holds_iff : d.Holds e ↔ e = d ∨ d.Encloses e :=
  Relation.reflTransGen_iff_eq_or_transGen

theorem Encloses.length_path_lt (h : d.Encloses e) : d.path.length < e.path.length := by
  induction h with
  | single hc =>
    rw [path_of_mem_children hc, List.length_append]
    exact Nat.lt_succ_self _
  | tail _ hc ih =>
    rw [path_of_mem_children hc, List.length_append]
    exact Nat.lt_succ_of_lt ih

theorem Encloses.ne (h : d.Encloses e) : e ≠ d := by
  rintro rfl
  exact Nat.lt_irrefl _ h.length_path_lt

/-- In a tree of distinct names an action encloses whatever stands directly inside another one only
if it holds the other one. -/
theorem Encloses.holds_parent {actions : Actions} (hdist : actions.Distinct) {c : Declaration}
    (h : d.Encloses c) (hd : d ∈ actions.declarations) (he : e ∈ actions.declarations)
    (hc : c ∈ e.children) : d.Holds e := by
  obtain ⟨b, hb, hc'⟩ := Relation.TransGen.tail'_iff.mp h
  rwa [hdist.eq_of_mem_children he (Holds.mem_declarations hb hd) hc hc']

end Declaration

/-! ## Groups -/

/-- The group is the tree itself or stands directly inside a declared action. -/
def Actions.HasGroup (actions g : Actions) : Prop :=
  g = actions ∨ ∃ d ∈ actions.declarations, g ∈ d.action.bodies

/-- The members of a group are declared at one path. -/
theorem Actions.HasGroup.exists_path {actions g : Actions} (h : actions.HasGroup g) :
    ∃ path, ∀ e ∈ g, (⟨e.1, e.2, path, g⟩ : Declaration) ∈ actions.declarations := by
  rcases h with rfl | ⟨d, hd, hg⟩
  · exact ⟨[], fun e he => root_mem_declarations (Actions.mem_children.mpr ⟨e.1, e.2, he, rfl⟩)⟩
  · refine ⟨d.path ++ [d.name], fun e he => children_mem_declarations hd ?_⟩
    exact Declaration.mem_children.mpr ⟨g, hg, Actions.mem_children.mpr ⟨e.1, e.2, he, rfl⟩⟩

/-- What is found in a group is declared there. -/
theorem Actions.HasGroup.declared {actions g : Actions} (h : actions.HasGroup g) {n : String}
    {a : Action} (ha : List.lookup n g = some a) :
    ∃ path, (⟨n, a, path, g⟩ : Declaration) ∈ actions.declarations := by
  obtain ⟨path, hpath⟩ := h.exists_path
  exact ⟨path, hpath (n, a) (Table.mem_of_lookup ha)⟩

/-- Going inside it leads to groups. -/
theorem Actions.HasGroup.body {actions g b : Actions} (h : actions.HasGroup g) {n : String}
    {a : Action} (ha : List.lookup n g = some a) (hb : b ∈ a.bodies) : actions.HasGroup b := by
  obtain ⟨path, hd⟩ := h.declared ha
  exact Or.inr ⟨_, hd, hb⟩

/-- A declared action is declared by a group of the tree. -/
theorem hasGroup_container {actions : Actions} {d : Declaration} (hd : d ∈ actions.declarations) :
    actions.HasGroup d.container := by
  rcases container_cases d hd with hroot | ⟨e, he, hin⟩
  · obtain ⟨n, a, -, rfl⟩ := Actions.mem_children.mp hroot
    exact Or.inl rfl
  · obtain ⟨b, hb, hin⟩ := Declaration.mem_children.mp hin
    obtain ⟨n, a, -, rfl⟩ := Actions.mem_children.mp hin
    exact Or.inr ⟨e, he, hb⟩

/-! ## Siblings -/

/-- The members of the group that declares an action are declared next to it. -/
theorem sibling_mem_declarations {actions : Actions} {d : Declaration}
    (hd : d ∈ actions.declarations) {n : String} {a : Action} (h : (n, a) ∈ d.container) :
    (⟨n, a, d.path, d.container⟩ : Declaration) ∈ actions.declarations := by
  rcases container_cases d hd with hroot | ⟨e, he, hin⟩
  · obtain ⟨n', a', -, rfl⟩ := Actions.mem_children.mp hroot
    exact root_mem_declarations (Actions.mem_children.mpr ⟨n, a, h, rfl⟩)
  · obtain ⟨b, hb, hin⟩ := Declaration.mem_children.mp hin
    obtain ⟨n', a', -, rfl⟩ := Actions.mem_children.mp hin
    exact children_mem_declarations he
      (Declaration.mem_children.mpr ⟨b, hb, Actions.mem_children.mpr ⟨n, a, h, rfl⟩⟩)

/-- In a tree of distinct names a name in the group of an action is the name of a sibling. -/
theorem Actions.Distinct.eq_sibling {actions : Actions} (hdist : actions.Distinct)
    {d e : Declaration} (hd : d ∈ actions.declarations) (he : e ∈ actions.declarations)
    (h : e.name ∈ d.container.keys) : e.path = d.path ∧ e.container = d.container := by
  obtain ⟨⟨n, a⟩, hmem, hname⟩ := List.mem_map.mp h
  rw [hdist.eq_of_name he (sibling_mem_declarations hd hmem) hname.symm]
  exact ⟨rfl, rfl⟩

/-- A tree in which a declared name that an action runs after is the name of a sibling. -/
def Actions.Neighborly (actions : Actions) : Prop :=
  ∀ d ∈ actions.declarations, ∀ e ∈ actions.declarations,
    e.name ∈ d.action.runAfter → e.name ∈ d.container.keys

end Flowchart
