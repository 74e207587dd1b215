import Mathlib.Data.List.Dedup
import Flowchart.Proofs.Descent
import Flowchart.Proofs.Nodes
import Flowchart.Proofs.Order

/-!
# Termination of the walk

A visit makes further visits, of the actions that an action runs after and of those inside it. That
recursion ends on the groups of every tree, also if names recur or actions need themselves, since
every nested visit finds one declared name more that has been visited.

* `Plan.arrivals` lists the visits that a visit makes, and `Plan.visit_congr` says that the visit
  depends on no others;
* `Plan.arrivals_spec`: they are made in groups of the tree, with a memory in which the action that
  makes them has been visited;
* `walkWithin_eq_walk`: the bound on the depth does not matter from `Plan.depth` on, so the walk
  solves the recursion without a bound, and `solution_eq_walk` says that nothing else does;
* `Descent` is a chain of visits, each made by the one before, and `Descent.length_le` bounds it;
* `walk_terminates` puts this together, with the number of actions that a conversion draws.
-/

namespace Flowchart

/-- The names that a tree declares, each of them once. -/
def Actions.declaredNames (actions : Actions) : List String :=
  (actions.declarations.map Declaration.name).dedup

/-- There are no more different declared names than that. -/
theorem Actions.length_le_declaredNames {actions : Actions} {names : List String}
    (hnodup : names.Nodup) (h : ∀ n ∈ names, ∃ d ∈ actions.declarations, d.name = n) :
    names.length ≤ actions.declaredNames.length := by
  refine (List.subperm_of_subset hnodup fun n hn => ?_).length_le
  obtain ⟨d, hd, rfl⟩ := h n hn
  exact List.mem_dedup.mpr (List.mem_map_of_mem hd)

/-- The groups that an action leads into are those inside it. -/
theorem Action.mem_bodies_of_mem_groups {a : Action} {name n : String} {g : Diagram.Group}
    (hg : g ∈ a.groups name) (hn : n ∈ g.actions.keys) : g.actions ∈ a.bodies := by
  obtain ⟨⟨n, b⟩, hb, rfl⟩ := List.mem_map.mp hn
  have hchild : (⟨n, b, [name], g.actions⟩ : Declaration)
      ∈ (⟨name, a, [], []⟩ : Declaration).children := by
    rw [Declaration.children_eq_groups]
    exact List.mem_flatMap.mpr ⟨g, hg, Actions.mem_children.mpr ⟨n, b, hb, rfl⟩⟩
  obtain ⟨body, hbody, hmem⟩ := Declaration.mem_children.mp hchild
  obtain ⟨n', b', -, heq⟩ := Actions.mem_children.mp hmem
  rw [Declaration.mk.injEq] at heq
  exact heq.2.2.2 ▸ hbody

namespace Diagram

/-! ## The visits that a visit makes -/

/-- A visit that is asked for: a name in a group, and the memory at that time. -/
structure Arrival where
  name : String
  group : Actions
  memo : Memo

namespace Arrival

/-- What a walk gives there. -/
def leg (x : Arrival) (V : Visit) : Leg := V x.name x.group x.memo

/-- The group has the name and it has not been visited, so that the action is drawn. -/
def passes (x : Arrival) : Bool :=
  (List.lookup x.name x.group).isSome && (x.memo.progress? x.name).isNone

theorem passes_iff {x : Arrival} :
    x.passes ↔ (∃ a, List.lookup x.name x.group = some a) ∧ x.memo.progress? x.name = none := by
  rw [passes, Bool.and_eq_true, Option.isSome_iff_exists, Option.isNone_iff_eq_none]

end Arrival

/-- The visits of the names of a group in order. -/
def memberArrivals (V : Visit) (group : Actions) : List String → Memo → List Arrival
  | [], _ => []
  | name :: rest, m => ⟨name, group, m⟩ :: memberArrivals V group rest (V name group m).memo

/-- The visits inside the action whose node is `id`. -/
def groupArrivals (V : Visit) (id : String) : List Group → Memo → List Arrival
  | [], _ => []
  | g :: rest, m =>
    memberArrivals V g.actions g.actions.keys m ++ groupArrivals V id rest (g.leg V id m).memo

namespace Plan

/-- The visits of the actions that `name` runs after: those that are declared and new. -/
def dependencyArrivals (p : Plan) (V : Visit) (name : String) : List String → Memo → List Arrival
  | [], _ => []
  | dependency :: rest, m =>
    (match p.index.lookup dependency, m.progress? dependency with
      | some d, none => [⟨dependency, d.container, m⟩]
      | _, _ => [])
    ++ dependencyArrivals p V name rest (p.connectDependency V name dependency m).memo

/-- The visits that a visit makes, in order. -/
def arrivals (p : Plan) (V : Visit) (x : Arrival) : List Arrival :=
  match List.lookup x.name x.group, x.memo.progress? x.name with
  | some a, none =>
    let m := x.memo.start x.name
    p.dependencyArrivals V x.name a.runAfter m
      ++ groupArrivals V (nodeId x.name) (a.groups x.name)
        (p.connectDependencies V x.name a.runAfter m).memo
  | _, _ => []

end Plan

/-! ## What a visit depends on -/

section Congruence

variable {p : Plan} {V V' : Visit}

theorem visitEach_congr {group : Actions} {w : Wiring} {isFirst : Bool} {names : List String}
    {m : Memo} (h : ∀ y ∈ memberArrivals V group names m, y.leg V' = y.leg V) :
    visitEach V' group w isFirst names m = visitEach V group w isFirst names m := by
  induction names generalizing isFirst m with
  | nil => rfl
  | cons name rest ih =>
    have hfirst : V' name group m = V name group m := h ⟨name, group, m⟩ List.mem_cons_self
    have hrest := @ih false (V name group m).memo fun y hy => h y (List.mem_cons_of_mem _ hy)
    simp only [visitEach, Leg.andThen, Leg.ofStrokes, hfirst, hrest]

theorem visitGroup_congr {group : Actions} {w : Wiring} {m : Memo}
    (h : ∀ y ∈ memberArrivals V group group.keys m, y.leg V' = y.leg V) :
    visitGroup V' group w m = visitGroup V group w m := by
  unfold visitGroup
  rw [visitEach_congr h]

theorem groupLegs_congr {id : String} {gs : List Group} {m : Memo}
    (h : ∀ y ∈ groupArrivals V id gs m, y.leg V' = y.leg V) :
    groupLegs V' id gs m = groupLegs V id gs m := by
  induction gs generalizing m with
  | nil => rfl
  | cons g rest ih =>
    have hfirst : g.leg V' id m = g.leg V id m := by
      unfold Group.leg
      rw [visitGroup_congr fun y hy => h y (List.mem_append_left _ hy)]
    have hrest := ih fun y hy => h y (List.mem_append_right _ hy)
    simp only [groupLegs, Leg.andThen, hfirst, hrest]

theorem Plan.connectDependencies_congr {name : String} {ks : List String} {m : Memo}
    (h : ∀ y ∈ p.dependencyArrivals V name ks m, y.leg V' = y.leg V) :
    p.connectDependencies V' name ks m = p.connectDependencies V name ks m := by
  induction ks generalizing m with
  | nil => rfl
  | cons k rest ih =>
    have hfirst : p.connectDependency V' name k m = p.connectDependency V name k m := by
      cases hlookup : p.index.lookup k with
      | none => simp only [connectDependency, hlookup]
      | some d =>
        cases hseen : m.progress? k with
        | some state =>
          cases state with
          | underway => simp only [connectDependency, hlookup, hseen]
          | done => simp only [connectDependency, hlookup, hseen]
        | none =>
          have hd : V' k d.container m = V k d.container m :=
            h ⟨k, d.container, m⟩ (List.mem_append_left _ (by simp [hlookup, hseen]))
          simp only [connectDependency, hlookup, hseen, hd]
    have hrest := ih fun y hy => h y (List.mem_append_right _ hy)
    simp only [connectDependencies, Leg.andThen, hfirst, hrest]

/-- A visit depends on nothing but the visits that it makes. -/
theorem Plan.visit_congr {x : Arrival} (h : ∀ y ∈ p.arrivals V x, y.leg V' = y.leg V) :
    x.leg (p.visit V') = x.leg (p.visit V) := by
  unfold Arrival.leg Plan.visit
  cases hlookup : List.lookup x.name x.group with
  | none => rfl
  | some a =>
    cases hseen : x.memo.progress? x.name with
    | some state => rfl
    | none =>
      rw [arrivals, hlookup, hseen] at h
      have hdependencies := connectDependencies_congr fun y hy => h y (List.mem_append_left _ hy)
      have hgroups := groupLegs_congr fun y hy => h y (List.mem_append_right _ hy)
      simp only [Leg.andThen, Action.leg, hdependencies, hgroups]

end Congruence

/-! ## Where nested visits are made -/

section Arrivals

variable {p : Plan} {V : Visit} {y : Arrival}

theorem of_mem_memberArrivals (hv : p.Progressive V) {group : Actions} {names : List String}
    {m : Memo} (h : y ∈ memberArrivals V group names m) :
    y.group = group ∧ y.name ∈ names ∧ m.Later y.memo := by
  induction names generalizing m with
  | nil => exact absurd h List.not_mem_nil
  | cons name rest ih =>
    rcases List.mem_cons.mp h with rfl | h
    · exact ⟨rfl, List.mem_cons_self, .refl⟩
    · obtain ⟨hgroup, hname, hlater⟩ := ih h
      exact ⟨hgroup, List.mem_cons_of_mem _ hname, (hv name group m).later.trans hlater⟩

theorem of_mem_groupArrivals (hv : p.Progressive V) {id : String} {gs : List Group} {m : Memo}
    (h : y ∈ groupArrivals V id gs m) :
    (∃ g ∈ gs, y.group = g.actions ∧ y.name ∈ g.actions.keys) ∧ m.Later y.memo := by
  induction gs generalizing m with
  | nil => exact absurd h List.not_mem_nil
  | cons g rest ih =>
    rcases List.mem_append.mp h with h | h
    · obtain ⟨hgroup, hname, hlater⟩ := of_mem_memberArrivals hv h
      exact ⟨⟨g, List.mem_cons_self, hgroup, hname⟩, hlater⟩
    · obtain ⟨⟨g', hg', hmem⟩, hlater⟩ := ih h
      exact ⟨⟨g', List.mem_cons_of_mem _ hg', hmem⟩,
        (Plan.groupLeg_proceeds hv id g m).later.trans hlater⟩

theorem of_mem_dependencyArrivals (hv : p.Progressive V) {name : String} {ks : List String}
    {m : Memo} (h : y ∈ p.dependencyArrivals V name ks m) :
    (∃ d, p.index.lookup y.name = some d ∧ y.group = d.container) ∧ m.Later y.memo := by
  induction ks generalizing m with
  | nil => exact absurd h List.not_mem_nil
  | cons k rest ih =>
    rcases List.mem_append.mp h with h | h
    · split at h
      · rename_i d hlookup _
        cases List.mem_singleton.mp h
        exact ⟨⟨d, hlookup, rfl⟩, .refl⟩
      · exact absurd h List.not_mem_nil
    · obtain ⟨hdeclared, hlater⟩ := ih h
      exact ⟨hdeclared, (Plan.connectDependency_proceeds hv name k m).later.trans hlater⟩

end Arrivals

variable {actions : Actions} {styles : StyleTable}

/-- Only an action that is drawn makes visits. They are made in groups of the tree, after the action
has been marked. -/
theorem Plan.arrivals_spec {V : Visit} (hv : (Plan.ofActions actions styles).Progressive V)
    {x y : Arrival} (hx : actions.HasGroup x.group)
    (h : y ∈ (Plan.ofActions actions styles).arrivals V x) :
    x.passes ∧ actions.HasGroup y.group ∧ (x.memo.start x.name).Later y.memo := by
  unfold arrivals at h
  split at h
  · rename_i a hlookup hnew
    refine ⟨Arrival.passes_iff.mpr ⟨⟨a, hlookup⟩, hnew⟩, ?_⟩
    rcases List.mem_append.mp h with h | h
    · obtain ⟨⟨d, hd, hgroup⟩, hlater⟩ := of_mem_dependencyArrivals hv h
      exact ⟨hgroup ▸ hasGroup_container (Index.mem_declarations hd).1, hlater⟩
    · obtain ⟨⟨g, hg, hgroup, hname⟩, hlater⟩ := of_mem_groupArrivals hv h
      exact ⟨hgroup ▸ hx.body hlookup (Action.mem_bodies_of_mem_groups hg hname),
        (connectDependencies_proceeds hv _ _ _).later.trans hlater⟩
  · exact absurd h List.not_mem_nil

/-- What is drawn in a group of the tree is declared. -/
theorem Arrival.declared {x : Arrival} (hx : actions.HasGroup x.group) (h : x.passes) :
    ∃ d ∈ actions.declarations, d.name = x.name := by
  obtain ⟨⟨a, hlookup⟩, -⟩ := passes_iff.mp h
  obtain ⟨path, hd⟩ := hx.declared hlookup
  exact ⟨_, hd, rfl⟩

/-- Every nested visit has one name less to come to. -/
theorem unvisited_lt {x y : Arrival} (hx : actions.HasGroup x.group) (hpasses : x.passes)
    (hlater : (x.memo.start x.name).Later y.memo) :
    unvisited actions y.memo < unvisited actions x.memo := by
  obtain ⟨d, hd, hname⟩ := Arrival.declared hx hpasses
  have hnew := (Arrival.passes_iff.mp hpasses).2
  rw [← hname] at hnew hlater
  exact Nat.lt_of_le_of_lt (unvisited_le_of_visited fun _ => hlater.visited)
    (unvisited_start_lt hd hnew)

/-! ## The recursion without a bound -/

theorem progressive_walk (p : Plan) : p.Progressive p.walk := Plan.walkWithin_proceeds p.depth

/-- Two bounds on the depth that exceed what is left to visit give the same walk. -/
theorem walkWithin_eq {b b' : Nat} {x : Arrival} (hx : actions.HasGroup x.group)
    (hb : unvisited actions x.memo < b) (hb' : unvisited actions x.memo < b') :
    x.leg ((Plan.ofActions actions styles).walkWithin b)
      = x.leg ((Plan.ofActions actions styles).walkWithin b') := by
  induction b generalizing b' x with
  | zero => exact absurd hb (Nat.not_lt_zero _)
  | succ b ih =>
    cases b' with
    | zero => exact absurd hb' (Nat.not_lt_zero _)
    | succ b' =>
      refine Plan.visit_congr fun y hy => ?_
      obtain ⟨hpasses, hgroup, hlater⟩ :=
        Plan.arrivals_spec (Plan.walkWithin_proceeds b') hx hy
      have hlt := unvisited_lt hx hpasses hlater
      exact ih hgroup (by omega) (by omega)

theorem walkWithin_eq_walk {bound : Nat} (hbound : (Plan.ofActions actions styles).depth ≤ bound)
    {x : Arrival} (hx : actions.HasGroup x.group) :
    x.leg ((Plan.ofActions actions styles).walkWithin bound)
      = x.leg (Plan.ofActions actions styles).walk :=
  walkWithin_eq hx (Nat.lt_of_lt_of_le (unvisited_lt_depth x.memo) hbound)
    (unvisited_lt_depth x.memo)

/-- A way of visiting that gives in every group of the tree what its own visits lead to. -/
def Solves (actions : Actions) (styles : StyleTable) (V : Visit) : Prop :=
  ∀ x : Arrival, actions.HasGroup x.group →
    x.leg V = x.leg ((Plan.ofActions actions styles).visit V)

theorem solves_walk (actions : Actions) (styles : StyleTable) :
    Solves actions styles (Plan.ofActions actions styles).walk :=
  fun _ hx => (walkWithin_eq_walk (Nat.le_succ _) hx).symm

/-- The recursion has no solution but the walk. -/
theorem solution_eq_walk {V : Visit} (hV : Solves actions styles V) {x : Arrival}
    (hx : actions.HasGroup x.group) : x.leg V = x.leg (Plan.ofActions actions styles).walk := by
  induction hn : unvisited actions x.memo using Nat.strongRecOn generalizing x with
  | ind n ih =>
    subst hn
    rw [hV x hx, solves_walk actions styles x hx]
    refine Plan.visit_congr fun y hy => ?_
    obtain ⟨hpasses, hgroup, hlater⟩ := Plan.arrivals_spec (progressive_walk _) hx hy
    exact ih _ (unvisited_lt hx hpasses hlater) hgroup rfl

/-- No descent through nested visits goes on forever. -/
theorem acc_arrivals {x : Arrival} (hx : actions.HasGroup x.group) :
    Acc (fun y x => y ∈ (Plan.ofActions actions styles).arrivals
      (Plan.ofActions actions styles).walk x) x := by
  induction hn : unvisited actions x.memo using Nat.strongRecOn generalizing x with
  | ind n ih =>
    subst hn
    refine Acc.intro x fun y hy => ?_
    obtain ⟨hpasses, hgroup, hlater⟩ := Plan.arrivals_spec (progressive_walk _) hx hy
    exact ih _ (unvisited_lt hx hpasses hlater) hgroup rfl

/-! ## Chains of visits -/

/-- Visits each of which is made by the one before it. -/
def Descent (actions : Actions) (styles : StyleTable) (xs : List Arrival) : Prop :=
  xs.IsChain fun x y =>
    y ∈ (Plan.ofActions actions styles).arrivals (Plan.ofActions actions styles).walk x

/-- If the first visit is in a group of the tree, it draws its action, and the second one comes
later. -/
def Arrival.Before (actions : Actions) (x y : Arrival) : Prop :=
  actions.HasGroup x.group →
    x.passes ∧ actions.HasGroup y.group ∧ (x.memo.start x.name).Later y.memo

instance (actions : Actions) :
    Trans (Arrival.Before actions) (Arrival.Before actions) (Arrival.Before actions) where
  trans := by
    intro x y z hxy hyz hx
    obtain ⟨hpasses, hy, hlater⟩ := hxy hx
    obtain ⟨hpasses', hz, hlater'⟩ := hyz hy
    have hstart : y.memo.Later (y.memo.start y.name) :=
      .single (.start (Arrival.passes_iff.mp hpasses').2)
    exact ⟨hpasses, hz, (hlater.trans hstart).trans hlater'⟩

/-- The names of the actions that a chain draws. -/
def drawnNames (xs : List Arrival) : List String := (xs.filter Arrival.passes).map Arrival.name

section Descents

variable {xs : List Arrival} (h : Descent actions styles xs)
  (hgroup : ∀ x ∈ xs.head?, actions.HasGroup x.group)
include h

theorem Descent.pairwise : xs.Pairwise (Arrival.Before actions) :=
  List.isChain_iff_pairwise.mp
    (h.imp fun _ _ hy hx => Plan.arrivals_spec (progressive_walk _) hx hy)

include hgroup

theorem Descent.hasGroup : ∀ x ∈ xs, actions.HasGroup x.group := by
  cases xs with
  | nil => exact fun x hx => absurd hx List.not_mem_nil
  | cons x rest =>
    intro y hy
    have hx : actions.HasGroup x.group := hgroup x rfl
    rcases List.mem_cons.mp hy with rfl | hy
    · exact hx
    · exact ((List.pairwise_cons.mp h.pairwise).1 y hy hx).2.1

/-- A chain draws no name twice. -/
theorem Descent.nodup : (drawnNames xs).Nodup := by
  refine List.pairwise_map.mpr ((h.pairwise.filter _).imp_of_mem fun {x y} hx hy hxy hname => ?_)
  obtain ⟨hx, -⟩ := List.mem_filter.mp hx
  obtain ⟨-, hpasses⟩ := List.mem_filter.mp hy
  -- the later visit finds the earlier name visited
  have hvisited := (hxy (h.hasGroup hgroup x hx)).2.2.visited Memo.visited_start
  rw [hname] at hvisited
  exact hvisited (Arrival.passes_iff.mp hpasses).2

theorem Descent.declared : ∀ n ∈ drawnNames xs, ∃ d ∈ actions.declarations, d.name = n := by
  intro n hn
  obtain ⟨x, hx, rfl⟩ := List.mem_map.mp hn
  obtain ⟨hmem, hpasses⟩ := List.mem_filter.mp hx
  exact Arrival.declared (h.hasGroup hgroup x hmem) hpasses

/-- Only the last visit of a chain may find its action visited, or no action at all. -/
theorem Descent.length_le : xs.length ≤ 1 + actions.declaredNames.length := by
  have hnames := actions.length_le_declaredNames (h.nodup hgroup) (h.declared hgroup)
  have hinit : xs.length ≤ 1 + (drawnNames xs).length := by
    rcases xs.eq_nil_or_concat' with rfl | ⟨init, last, rfl⟩
    · exact Nat.zero_le _
    · have hall : ∀ x ∈ init, x.passes := fun x hx =>
        ((List.pairwise_append.mp h.pairwise).2.2 x hx last List.mem_cons_self
          (h.hasGroup hgroup x (List.mem_append_left _ hx))).1
      rw [drawnNames, List.filter_append, List.filter_eq_self.mpr hall]
      simp
      omega
  omega

end Descents

/-! ## Termination -/

/-- On the groups of any tree, from any memory, the recursion of visits has a solution, and no other
than the walk; no descent through nested visits goes on forever; the actions that a chain of nested
visits draws have different names that the tree declares, so that the chain has one visit more than
there are such names at most; and a conversion draws no more actions than that either. -/
theorem walk_terminates (actions : Actions) (styles : StyleTable) :
    (Solves actions styles (Plan.ofActions actions styles).walk ∧
      ∀ V, Solves actions styles V → ∀ group, actions.HasGroup group → ∀ m,
        (∀ name, V name group m = (Plan.ofActions actions styles).walk name group m) ∧
          ∀ w, visitGroup V group w m = (Plan.ofActions actions styles).walkAll group w m) ∧
    (∀ x : Arrival, actions.HasGroup x.group →
      Acc (fun y x => y ∈ (Plan.ofActions actions styles).arrivals
        (Plan.ofActions actions styles).walk x) x) ∧
    (∀ xs, Descent actions styles xs → (∀ x ∈ xs.head?, actions.HasGroup x.group) →
      (drawnNames xs).Nodup ∧ (∀ n ∈ drawnNames xs, ∃ d ∈ actions.declarations, d.name = n) ∧
        xs.length ≤ 1 + actions.declaredNames.length) ∧
    ∀ config log definition c, Definition.tree? definition = some actions →
      (convert config log definition).2 = .ok c →
      (nodeLines c.canvas.lines).length = 1 + c.memo.visits.keys.length ∧
        c.memo.visits.keys.length ≤ actions.declaredNames.length := by
  refine ⟨⟨solves_walk actions styles, fun V hV group hgroup m => ?_⟩, fun x => acc_arrivals,
    fun xs h hgroup => ⟨h.nodup hgroup, h.declared hgroup, h.length_le hgroup⟩,
    fun config log definition c htree h => ?_⟩
  · have hvisit : ∀ name m, V name group m = (Plan.ofActions actions styles).walk name group m :=
      fun name m => solution_eq_walk hV (x := ⟨name, group, m⟩) hgroup
    refine ⟨fun name => hvisit name m, fun w => visitGroup_congr fun y hy => ?_⟩
    obtain ⟨rfl, -, -⟩ := of_mem_memberArrivals (progressive_walk _) hy
    exact hvisit y.name y.memo
  · obtain ⟨t, ht⟩ := convert_drawn_of_tree h htree
    obtain ⟨hnames, hnodup⟩ := ht.names_drawn
    rw [← hnames]
    refine ⟨?_, Actions.length_le_declaredNames hnodup fun n hn => ?_⟩
    · rw [ht.nodeLines_perm.length_eq, List.length_cons, List.length_map, List.length_map,
        Nat.add_comm]
    · obtain ⟨d, hd, rfl⟩ := List.mem_map.mp hn
      exact ⟨d, ht.walks.drawn_declared d hd, rfl⟩

/-- A tree with a name that recurs, in which everything runs after itself. -/
def loopActions : Actions :=
  [("Ship", .simple "Http" ["Ship", "Depot"] []),
    ("Depot", .scope .scope ["Pack"]
      [("Ship", .simple "Http" ["Depot"] []), ("Pack", .simple "Compose" ["Ship"] [])])]

/-- A visit of this tree descends three times to an action that is new, and draws three actions. -/
theorem walk_terminates_loop :
    ∃ x y z : Arrival, Descent loopActions [] [x, y, z] ∧
      Acc (fun y x => y ∈ (Plan.ofActions loopActions []).arrivals
        (Plan.ofActions loopActions []).walk x) x ∧
      drawnNames [x, y, z] = ["Ship", "Depot", "Pack"] ∧ (drawnNames [x, y, z]).Nodup ∧
      [x, y, z].length ≤ 1 + loopActions.declaredNames.length ∧
      ∃ c, (convert {} ⟨[], []⟩ (definitionOf loopActions.entries)).2 = .ok c ∧
        (nodeLines c.canvas.lines).length = 4 ∧
        c.memo.visits.keys.length ≤ loopActions.declaredNames.length := by
  let p := Plan.ofActions loopActions []
  let x : Arrival := ⟨"Ship", loopActions, .empty⟩
  let y : Arrival := (p.arrivals p.walk x).get ⟨0, by decide +kernel⟩
  let z : Arrival := (p.arrivals p.walk y).get ⟨0, by decide +kernel⟩
  have hnested : Descent loopActions [] [x, y, z] := by
    refine .cons_cons ?_ (.cons_cons ?_ (.singleton _))
    · exact List.get_mem _ _
    · exact List.get_mem _ _
  have hreadable : loopActions.Readable := by decide
  have haccepted := hreadable.convert_definitionOf ⟨[], []⟩
    (show (Conversion.ofActions {} loopActions).halt? = none by decide +kernel)
  obtain ⟨-, hacc, hchain, hconversion⟩ := walk_terminates loopActions []
  obtain ⟨hnodup, -, hlength⟩ := hchain _ hnested (by rintro _ ⟨⟩; exact Or.inl rfl)
  obtain ⟨hnodes, hvisits⟩ := hconversion _ _ _ _ hreadable.tree?_definitionOf haccepted
  exact ⟨x, y, z, hnested, hacc x (Or.inl rfl), by decide +kernel, hnodup, hlength, _, haccepted,
    hnodes.trans (by decide +kernel), hvisits⟩

end Diagram

end Flowchart
