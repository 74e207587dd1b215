import Flowchart.Proofs.Entries
import Flowchart.Proofs.Marks
import Flowchart.Proofs.Reachability
import Flowchart.Proofs.Redeclaration
import Flowchart.Proofs.Requests

/-!
# One more action at the end

A definition is converted, an action is added after all others, and the definition is converted
again. If its names are new, what was drawn before is drawn again as it was, and the rest follows.

* `Walks.eq_of_walks`: a walk is determined by its tasks and the memory that it starts from;
* `Declaration.movedTo` is a declaration at the top of a larger tree. `Walks.movedTo`: a walk over a
  tree is one over the larger tree too, if nothing in the tree runs after what is new;
* `linesOfAll_congr`: what a canvas remembers matters only where it is asked for;
* `Walks.drawn_added`: if the added actions find what they run after already drawn, nothing else is
  drawn after them;
* `convert_addition` puts the two conversions side by side, and `convert_addition_forced` is an
  addition that leads to an action which had not been drawn.
-/

namespace Flowchart

open Diagram

/-! ## The tree with more actions -/

/-- Going inside a declared action never leaves the part of the tree that it is declared in. -/
theorem children_mem_declarationsFrom {path : List String} {container g : Actions}
    {d c : Declaration} (hd : d ∈ declarationsFrom path container g) (hc : c ∈ d.children) :
    c ∈ declarationsFrom path container g := by
  obtain ⟨b, hb, hc⟩ := Declaration.mem_children.mp hc
  exact (declarationsFrom_sublist hd hb).subset ((children_sublist _ b b).subset hc)

/-- What is declared in a group at a path is declared at that path or below it. -/
theorem prefix_path_of_mem {path : List String} {container g : Actions} {d : Declaration}
    (hd : d ∈ declarationsFrom path container g) : path <+: d.path := by
  induction g using Actions.induction generalizing path container with
  | h g ih =>
    rw [declarationsFrom_eq, List.mem_flatMap] at hd
    obtain ⟨⟨n, a⟩, hmem, hd⟩ := hd
    rcases List.mem_cons.mp hd with rfl | hd
    · exact List.prefix_refl path
    · rw [Action.declarations_eq, List.mem_flatMap] at hd
      obtain ⟨b, hb, hd⟩ := hd
      exact (List.prefix_append _ _).trans (ih n a hmem b hb hd)

/-- A declaration of a tree in a larger tree: at the top it stands in the larger group. -/
def Declaration.movedTo (all : Actions) (d : Declaration) : Declaration :=
  if d.path = [] then { d with container := all } else d

namespace Declaration

variable (all : Actions) (d : Declaration)

@[simp] theorem name_movedTo : (d.movedTo all).name = d.name := by
  rw [movedTo]
  split
  · rfl
  · rfl

@[simp] theorem action_movedTo : (d.movedTo all).action = d.action := by
  rw [movedTo]
  split
  · rfl
  · rfl

@[simp] theorem path_movedTo : (d.movedTo all).path = d.path := by
  rw [movedTo]
  split
  · rfl
  · rfl

theorem movedTo_of_inside {d : Declaration} (h : d.path ≠ []) : d.movedTo all = d := if_neg h

@[simp] theorem exitsFrom_movedTo (inside : List String) :
    (d.movedTo all).exitsFrom inside = d.exitsFrom inside := by
  simp [exitsFrom]

/-- What is inside an action is the same in the larger tree. -/
theorem movedTo_of_mem_children {d c : Declaration} (h : c ∈ d.children) : c.movedTo all = c :=
  movedTo_of_inside all (by simp [path_of_mem_children h])

end Declaration

theorem declarationsFrom_movedTo (all g : Actions) (entries : List (String × Action)) :
    declarationsFrom [] all entries = (declarationsFrom [] g entries).map (.movedTo all) := by
  have hinside : ∀ e : String × Action,
      (e.2.declarations ([] ++ [e.1])).map (.movedTo all) = e.2.declarations ([] ++ [e.1]) := by
    intro e
    refine (List.map_congr_left fun d hd => ?_).trans (List.map_id _)
    rw [Action.declarations_eq, List.mem_flatMap] at hd
    obtain ⟨b, -, hd⟩ := hd
    have hpath := (prefix_path_of_mem hd).length_le
    refine Declaration.movedTo_of_inside all fun hnil => ?_
    rw [hnil] at hpath
    simp at hpath
  rw [declarationsFrom_eq, declarationsFrom_eq, List.map_flatMap]
  refine List.flatMap_congr fun e _ => ?_
  rw [List.map_cons, hinside]
  rfl

/-- A tree with one more action after all others. -/
def Actions.adding (actions : Actions) (name : String) (a : Action) : Actions :=
  actions ++ [(name, a)]

/-- What the added action declares: itself and everything inside it. -/
def Actions.addition (actions : Actions) (name : String) (a : Action) : List Declaration :=
  declarationsFrom [] (actions.adding name a) [(name, a)]

section Addition

variable {actions : Actions} {name : String} {a : Action}

theorem declarations_adding (actions : Actions) (name : String) (a : Action) :
    (actions.adding name a).declarations
      = actions.declarations.map (.movedTo (actions.adding name a)) ++ actions.addition name a := by
  have happend := declarationsFrom_append [] (actions.adding name a) actions [(name, a)]
  rwa [declarationsFrom_movedTo _ actions actions] at happend

/-- The added action itself. -/
theorem mem_addition_self :
    (⟨name, a, [], actions.adding name a⟩ : Declaration) ∈ actions.addition name a :=
  List.mem_cons_self

/-- The index leads from a name that is not new to where it led before. -/
theorem lookup_index_of_old {k : String} (h : ∀ d ∈ actions.addition name a, d.name ≠ k) :
    (Index.ofActions (actions.adding name a)).1.lookup k
      = ((Index.ofActions actions).1.lookup k).map (.movedTo (actions.adding name a)) := by
  have hnew : (actions.addition name a).reverse.find? (·.name == k) = none :=
    List.find?_eq_none.mpr fun d hd => by simpa using h d (List.mem_reverse.mp hd)
  rw [Index.lookup_ofActions, Index.lookup_ofActions, declarations_adding, List.reverse_append,
    List.find?_append, hnew, Option.none_or, ← List.map_reverse, List.find?_map]
  simp only [Function.comp_def, Declaration.name_movedTo]

/-- A new name leads into what is added. -/
theorem mem_addition_of_lookup {k : String} {d : Declaration}
    (hk : ∃ e ∈ actions.addition name a, e.name = k)
    (h : (Index.ofActions (actions.adding name a)).1.lookup k = some d) :
    d ∈ actions.addition name a := by
  obtain ⟨e, he, hname⟩ := hk
  have hsome : ((actions.addition name a).reverse.find? (·.name == k)).isSome :=
    List.find?_isSome.mpr ⟨e, List.mem_reverse.mpr he, by simp [hname]⟩
  rw [Index.lookup_ofActions, declarations_adding, List.reverse_append, List.find?_append,
    Option.or_of_isSome hsome] at h
  exact List.mem_reverse.mp (List.mem_of_find?_eq_some h)

end Addition

namespace Diagram

variable {actions : Actions} {styles : StyleTable} {ts : List Task} {m : Memo} {t : Trip}

/-! ## Two walks -/

/-- There is one way to carry out tasks from a memory. -/
theorem Walks.eq_of_walks (h : Walks actions styles ts m t) {t' : Trip}
    (h' : Walks actions styles ts m t') : t = t' := by
  induction h generalizing t' with
  | nil m =>
    cases h' with
    | nil => rfl
  | wire _ ih =>
    cases h' with
    | wire rest => rw [ih rest]
  | leave _ ih =>
    cases h' with
    | leave rest => rw [ih rest]
  | again _ seen _ ih =>
    cases h' with
    | again _ _ rest => rw [ih rest]
    | fresh _ new _ _ _ => exact absurd new seen
  | fresh _ new _ _ _ ih₁ ih₂ ih₃ =>
    cases h' with
    | again _ seen _ => exact absurd new seen
    | fresh _ _ dependencies groups rest =>
      cases ih₁ dependencies
      cases ih₂ groups
      rw [ih₃ rest]
  | unknown absent _ ih =>
    cases h' with
    | unknown _ rest => rw [ih rest]
    | met known _ _ =>
      rw [absent] at known
      cases known
    | force known _ _ _ =>
      rw [absent] at known
      cases known
  | met known seen _ ih =>
    cases h' with
    | unknown absent _ =>
      rw [absent] at known
      cases known
    | met _ seen' rest =>
      rw [seen, Option.some.injEq] at seen'
      rw [ih rest, seen']
    | force _ new _ _ =>
      rw [new] at seen
      cases seen
  | force known new _ _ ih₁ ih₂ =>
    cases h' with
    | unknown absent _ =>
      rw [absent] at known
      cases known
    | met _ seen _ =>
      rw [new] at seen
      cases seen
    | force known' _ drawn rest =>
      rw [known, Option.some.injEq] at known'
      subst known'
      cases ih₁ drawn
      rw [ih₂ rest]

/-- A task in a larger tree. -/
def Task.movedTo (all : Actions) : Task → Task
  | visit d => visit (d.movedTo all)
  | task => task

/-- A trip in a larger tree. -/
def Trip.movedTo (all : Actions) (t : Trip) : Trip :=
  { t with drawn := t.drawn.map (.movedTo all) }

theorem Trip.movedTo_prepend (all : Actions) (t : Trip) (xs : List String) (ss : List Stroke)
    (ds : List Declaration) :
    (t.prepend xs ss ds).movedTo all = (t.movedTo all).prepend xs ss (ds.map (.movedTo all)) := by
  simp [Trip.movedTo, Trip.prepend]

/-- What the groups inside an action ask for is the same in a larger tree. -/
theorem map_movedTo_tasks (all : Actions) (d : Declaration) :
    d.tasks.map (.movedTo all) = (d.movedTo all).tasks := by
  have hsame : (d.movedTo all).tasks = d.tasks := by simp [Declaration.tasks]
  rw [hsame]
  refine (List.map_congr_left fun task htask => ?_).trans (List.map_id _)
  cases task with
  | visit c => exact congrArg Task.visit (Declaration.movedTo_of_mem_children all
      (visit_mem_tasks.mp htask))
  | _ => rfl

theorem map_movedTo_dependencyTasks (all : Actions) (d : Declaration) :
    d.dependencyTasks.map (.movedTo all) = (d.movedTo all).dependencyTasks := by
  simp [Declaration.dependencyTasks, Task.movedTo, Function.comp_def]

/-- A walk over a tree is a walk over a larger tree, if the two agree on where the names are
declared that something runs after. -/
theorem Walks.movedTo (h : Walks actions styles ts m t) (all : Actions) (old : String → Prop)
    (hmem : ∀ d ∈ actions.declarations, d.movedTo all ∈ all.declarations)
    (hlookup : ∀ k, old k →
      (Index.ofActions all).1.lookup k = ((Index.ofActions actions).1.lookup k).map (.movedTo all))
    (hafter : ∀ d ∈ actions.declarations, ∀ k ∈ d.action.runAfter, old k)
    (hts : ∀ n k, .depend n k ∈ ts → old k) :
    Walks all styles (ts.map (.movedTo all)) m (t.movedTo all) := by
  have hknown : ∀ {k : String} {d : Declaration}, old k →
      (Index.ofActions actions).1.lookup k = some d →
      (Index.ofActions all).1.lookup k = some (d.movedTo all) := fun hk hd => by
    rw [hlookup _ hk, hd]
    rfl
  induction h with
  | nil m => exact .nil m
  | wire _ ih =>
    rw [Trip.movedTo_prepend]
    exact (ih fun n k hk => hts n k (List.mem_cons_of_mem _ hk)).wire
  | leave _ ih =>
    rw [Trip.movedTo_prepend]
    exact (ih fun n k hk => hts n k (List.mem_cons_of_mem _ hk)).leave
  | @again d ts m t declared seen _ ih =>
    rw [Trip.movedTo_prepend, ← Declaration.name_movedTo all]
    refine .again (hmem _ declared) ?_ (ih fun n k hk => hts n k (List.mem_cons_of_mem _ hk))
    rwa [Declaration.name_movedTo]
  | @fresh d ts m before inside t declared new dependencies groups _ ih₁ ih₂ ih₃ =>
    have hbefore : Walks all styles (d.movedTo all).dependencyTasks
        (m.start (d.movedTo all).name) (before.movedTo all) := by
      rw [← map_movedTo_dependencyTasks, Declaration.name_movedTo]
      refine ih₁ fun n k hk => ?_
      obtain ⟨k', hk', heq⟩ := List.mem_map.mp hk
      cases heq
      exact hafter d declared _ hk'
    have hinside : Walks all styles (d.movedTo all).tasks (before.movedTo all).memo
        (inside.movedTo all) := by
      rw [← map_movedTo_tasks]
      exact ih₂ fun n k hk => absurd hk depend_not_mem_tasks
    have hrest : Walks all styles (ts.map (.movedTo all))
        ((inside.movedTo all).memo.finish (d.movedTo all).name
          ((d.movedTo all).exitsFrom (inside.movedTo all).exits)) (t.movedTo all) := by
      rw [Declaration.name_movedTo, Declaration.exitsFrom_movedTo]
      exact ih₃ fun n k hk => hts n k (List.mem_cons_of_mem _ hk)
    have hwalk := Walks.fresh (hmem d declared) (by rwa [Declaration.name_movedTo]) hbefore hinside
      hrest
    simpa [Trip.movedTo, Trip.prepend, Task.movedTo] using hwalk
  | unknown absent _ ih =>
    rw [Trip.movedTo_prepend]
    refine .unknown ?_ (ih fun n k hk => hts n k (List.mem_cons_of_mem _ hk))
    rw [hlookup _ (hts _ _ List.mem_cons_self), absent]
    rfl
  | met known seen _ ih =>
    rw [Trip.movedTo_prepend]
    exact .met (hknown (hts _ _ List.mem_cons_self) known) seen
      (ih fun n k hk => hts n k (List.mem_cons_of_mem _ hk))
  | force known new _ _ ih₁ ih₂ =>
    rw [Trip.movedTo_prepend]
    exact .force (hknown (hts _ _ List.mem_cons_self) known) new (ih₁ fun n k hk => by simp at hk)
      (ih₂ fun n k hk => hts n k (List.mem_cons_of_mem _ hk))

/-- Actions that find what they run after among themselves, or already visited, have nothing else
drawn. -/
theorem Walks.drawn_among {ds : List Declaration} (h : Walks actions styles ts m t)
    (hchildren : ∀ d ∈ ds, ∀ c ∈ d.children, c ∈ ds)
    (hafter : ∀ d ∈ ds, ∀ k ∈ d.action.runAfter,
      m.Visited k ∨ ∀ e, (Index.ofActions actions).1.lookup k = some e → e ∈ ds)
    (hvisit : ∀ d, .visit d ∈ ts → d ∈ ds)
    (hdepend : ∀ n k, .depend n k ∈ ts →
      m.Visited k ∨ ∀ e, (Index.ofActions actions).1.lookup k = some e → e ∈ ds) :
    ∀ d ∈ t.drawn, d ∈ ds := by
  induction h with
  | nil m => exact fun d hd => absurd hd List.not_mem_nil
  | wire _ ih | leave _ ih | unknown _ _ ih | met _ _ _ ih =>
    exact ih hafter (fun d hd => hvisit d (List.mem_cons_of_mem _ hd))
      fun n k hk => hdepend n k (List.mem_cons_of_mem _ hk)
  | again _ _ _ ih =>
    exact ih hafter (fun d hd => hvisit d (List.mem_cons_of_mem _ hd))
      fun n k hk => hdepend n k (List.mem_cons_of_mem _ hk)
  | @fresh d ts m before inside t _ _ dependencies groups _ ih₁ ih₂ ih₃ =>
    have hd : d ∈ ds := hvisit d List.mem_cons_self
    have hstart : ∀ k, m.Visited k → (m.start d.name).Visited k := fun k hk => hk.start d.name
    have hbefore : ∀ k, m.Visited k → before.memo.Visited k := fun k hk =>
      dependencies.visited_mono (hstart k hk)
    have hinside : ∀ k, m.Visited k →
        (inside.memo.finish d.name (d.exitsFrom inside.exits)).Visited k := fun k hk =>
      (groups.visited_mono (hbefore k hk)).finish _ _
    intro e he
    simp only [Trip.drawn_prepend, List.cons_append, List.mem_cons, List.mem_append] at he
    rcases he with rfl | (he | he) | he
    · exact hd
    · refine ih₁ (fun c hc k hk => (hafter c hc k hk).imp_left (hstart k)) ?_ ?_ e he
      · intro c hc
        obtain ⟨k, -, heq⟩ := List.mem_map.mp hc
        cases heq
      · intro n k hk
        obtain ⟨k', hk', heq⟩ := List.mem_map.mp hk
        cases heq
        exact (hafter d hd _ hk').imp_left (hstart _)
    · refine ih₂ (fun c hc k hk => (hafter c hc k hk).imp_left (hbefore k)) ?_ ?_ e he
      · exact fun c hc => hchildren d hd c (visit_mem_tasks.mp hc)
      · exact fun n k hk => absurd hk depend_not_mem_tasks
    · exact ih₃ (fun c hc k hk => (hafter c hc k hk).imp_left (hinside k))
        (fun c hc => hvisit c (List.mem_cons_of_mem _ hc))
        (fun n k hk => (hdepend n k (List.mem_cons_of_mem _ hk)).imp_left (hinside k)) e he
  | @force _ _ _ _ _ _ _ known new drawn _ ih₁ ih₂ =>
    have hkeep := fun k => drawn.visited_mono (n := k)
    intro e he
    rcases List.mem_append.mp he with he | he
    · refine ih₁ hafter (fun c hc => ?_) (fun n k hk => by simp at hk) e he
      rw [List.mem_singleton, Task.visit.injEq] at hc
      subst hc
      exact (hdepend _ _ List.mem_cons_self).resolve_left (fun hv => hv new) _ known
    · exact ih₂ (fun c hc k hk => (hafter c hc k hk).imp_left (hkeep k))
        (fun c hc => hvisit c (List.mem_cons_of_mem _ hc))
        (fun n k hk => (hdepend n k (List.mem_cons_of_mem _ hk)).imp_left (hkeep k)) e he

/-! ## Two canvases -/

namespace Canvas

/-- What strokes add depends on the classes that are defined and on those arrows only that the
strokes ask for. -/
theorem linesOfAll_congr {c c' : Canvas} {ss : List Stroke}
    (hclasses : ∀ name, name ∈ c.classes ↔ name ∈ c'.classes)
    (hedges : ∀ s ∈ ss, ∀ e, s.arrow? = some e → (e ∈ c.edges ↔ e ∈ c'.edges)) :
    c.linesOfAll ss = c'.linesOfAll ss := by
  induction ss generalizing c c' with
  | nil => rfl
  | cons s rest ih =>
    have hline : c.linesOf s = c'.linesOf s := by
      cases s with
      | connect source target text note =>
        simp only [linesOf, List.contains_iff_mem, hedges _ List.mem_cons_self _ rfl]
      | assign id style => simp only [linesOf, List.contains_iff_mem, hclasses]
      | _ => rfl
    rw [linesOfAll, linesOfAll, hline]
    congr 1
    refine ih (fun name => ?_) fun s' hs' e he => ?_
    · rw [mem_classes_draw, mem_classes_draw, hclasses]
    · rw [mem_edges_draw, mem_edges_draw, hedges s' (List.mem_cons_of_mem _ hs') e he]

end Canvas

/-! ## Drawings of the two trees -/

section Drawn

variable {config : Config} {name : String} {a : Action}

/-- The added action is visited after all others. -/
theorem rootTasks_adding (actions : Actions) (name : String) (a : Action) :
    rootTasks (actions.adding name a)
      = (rootTasks actions).map (.movedTo (actions.adding name a))
        ++ [.visit ⟨name, a, [], actions.adding name a⟩] := by
  have hchildren : (actions.adding name a).children []
      = (actions.children []).map (.movedTo (actions.adding name a))
        ++ [⟨name, a, [], actions.adding name a⟩] := by
    rw [Actions.children, Actions.children, List.map_map]
    exact List.map_append
  rw [rootTasks_eq, rootTasks_eq, hchildren, List.map_append, List.map_map, List.map_map]
  rfl

/-- The names that an action declares are not those of a tree, nor does anything in the tree run
after one of them. -/
def Unrelated (actions : Actions) (name : String) (a : Action) : Prop :=
  ∀ d ∈ actions.addition name a, ∀ e ∈ actions.declarations,
    d.name ≠ e.name ∧ d.name ∉ e.action.runAfter

/-- The trip over the larger tree is the one over the tree, and then a visit of what is added. -/
theorem Drawn.exists_rest {c c' : Conversion} {t' : Trip} (h : Drawn config actions c t)
    (h' : Drawn config (actions.adding name a) c' t') (hnew : Unrelated actions name a) :
    ∃ u, Walks (actions.adding name a) config.styles
        [.visit ⟨name, a, [], actions.adding name a⟩] t.memo u ∧
      t'.strokes = t.strokes ++ u.strokes ∧ t'.memo = u.memo := by
  let self : Declaration := ⟨name, a, [], actions.adding name a⟩
  have hwalk : Walks (actions.adding name a) config.styles
      ((rootTasks actions).map (.movedTo (actions.adding name a))) .empty
      (t.movedTo (actions.adding name a)) := by
    refine h.walks.movedTo (actions.adding name a)
      (fun k => ∀ d ∈ actions.addition name a, d.name ≠ k) (fun d hd => ?_)
      (fun k hk => lookup_index_of_old hk)
      (fun e he k hk d hd heq => (hnew d hd e he).2 (heq ▸ hk)) fun n k hk => ?_
    · rw [declarations_adding]
      exact List.mem_append_left _ (List.mem_map_of_mem hd)
    · obtain ⟨d, hd⟩ := rootTasks_visit hk
      cases hd
  have hself : self ∈ (actions.adding name a).declarations := by
    rw [declarations_adding]
    exact List.mem_append_right _ mem_addition_self
  obtain ⟨u, hu, -⟩ := faithful_walkWithin config.styles h'.readable.wellFormed _ self hself t.memo
    (Nat.lt_succ_self _)
  have hall := hwalk.append hu
  rw [← rootTasks_adding] at hall
  rw [h'.walks.eq_of_walks hall]
  exact ⟨u, hu, rfl, rfl⟩

/-- An arrow leads to the node of a declared action. -/
theorem Drawn.target_declared {c : Conversion} (h : Drawn config actions c t)
    {source target note : String} {text : Option String}
    (hmem : .connect source target text note ∈ startStrokes actions ++ t.strokes) :
    ∃ d ∈ actions.declarations, nodeId d.name = target := by
  rcases List.mem_append.mp hmem with hmem | hmem
  · obtain ⟨n, hn, -, rfl, -, -⟩ := connect_mem_startStrokes.mp hmem
    obtain ⟨b, hb, -⟩ := mem_startingNames.mp hn
    exact ⟨_, root_mem_declarations (Actions.mem_children.mpr ⟨n, b, hb, rfl⟩), rfl⟩
  · obtain ⟨-, k, hk, rfl⟩ := h.grounded.arrows _ _ _ _ hmem
    rcases h.walks.visited_iff.mp hk with hempty | ⟨d, hd, rfl⟩
    · exact absurd rfl hempty
    · exact ⟨d, h.walks.drawn_declared d hd, rfl⟩

/-- No arrow of a drawing is written like an arrow to a node of another id. -/
theorem Drawn.arrow?_ne {c : Conversion} (h : Drawn config actions c t)
    (hids : ∀ d ∈ actions.declarations, nodeId d.name ≠ nodeId name) {s : Stroke}
    (hs : s ∈ startStrokes actions ++ t.strokes) :
    s.arrow? ≠ some (Line.ofEdge startId (nodeId name) none).render := by
  intro harrow
  obtain ⟨source, target, text, note, rfl, hrender⟩ := Stroke.arrow?_eq_some_iff.mp harrow
  obtain ⟨hsource, htarget⟩ := h.space_not_mem hs
  obtain ⟨d, hd, rfl⟩ := h.target_declared hs
  exact hids d hd (Line.ends_of_render_eq hsource htarget (by decide) (space_not_mem_nodeId name)
    hrender).2

/-- The arrow from the start node to the added action, if it runs after nothing. -/
def startEdge (name : String) (a : Action) : List Line :=
  if a.runAfter = [] then [.ofEdge startId (nodeId name) none] else []

/-- The start node leads to the same actions as before, and then to the added one. -/
theorem linesOfAll_startStrokes_adding (actions : Actions) {name : String} {a : Action}
    (hnew : ∀ s ∈ startStrokes actions,
      s.arrow? ≠ some (Line.ofEdge startId (nodeId name) none).render) :
    Canvas.blank.linesOfAll (startStrokes (actions.adding name a))
      = Canvas.blank.linesOfAll (startStrokes actions) ++ startEdge name a := by
  let arrows : Actions → List Stroke := fun g =>
    (startingNames g).map fun name => .connect startId (nodeId name) none ""
  let first : List Stroke :=
    [.node startId "Start" .circle, .line (.nodeStyle startId startStyle)]
  -- whether there is a report makes no difference to the lines
  have hlines : ∀ g : Actions, Canvas.blank.linesOfAll (startStrokes g)
      = Canvas.blank.linesOfAll (first ++ arrows g) := by
    intro g
    rw [startStrokes, Canvas.linesOfAll_append, Canvas.linesOfAll_append,
      Canvas.linesOfAll_append, Canvas.drawAll_append]
    split
    · rw [List.append_assoc]
      rfl
    · rw [List.append_assoc]
      rfl
  have hstarting : arrows (actions.adding name a) = arrows actions
      ++ if a.runAfter = [] then [.connect startId (nodeId name) none ""] else [] := by
    simp only [arrows, startingNames, Actions.adding, List.filter_append, Table.keys,
      List.map_append]
    congr 1
    split
    · rename_i hnone
      simp [hnone]
    · rename_i hsome
      simp [hsome]
  rw [hlines, hlines, hstarting, ← List.append_assoc, Canvas.linesOfAll_append]
  congr 1
  rw [startEdge]
  split
  · have habsent : (Line.ofEdge startId (nodeId name) none).render
        ∉ (Canvas.blank.drawAll (first ++ arrows actions)).1.edges := by
      rw [Canvas.mem_edges_drawAll]
      rintro (hblank | ⟨s, hs, harrow⟩)
      · exact absurd hblank List.not_mem_nil
      · refine hnew s ?_ harrow
        rw [startStrokes, List.append_assoc]
        exact (List.mem_append.mp hs).elim (List.mem_append_left _) fun hs =>
          List.mem_append_right _ (List.mem_append_right _ hs)
    simp [Canvas.linesOfAll, Canvas.linesOf, habsent]
  · rfl

/-- The start node asks for its arrows by the names it leads to. -/
theorem exists_arrow_startStrokes {e : String} :
    (∃ s ∈ startStrokes actions, s.arrow? = some e) ↔
      ∃ n ∈ startingNames actions, (Line.ofEdge startId (nodeId n) none).render = e := by
  constructor
  · rintro ⟨s, hs, harrow⟩
    obtain ⟨source, target, text, note, rfl, hrender⟩ := Stroke.arrow?_eq_some_iff.mp harrow
    obtain ⟨n, hn, rfl, rfl, rfl, rfl⟩ := connect_mem_startStrokes.mp hs
    exact ⟨n, hn, hrender⟩
  · rintro ⟨n, hn, rfl⟩
    exact ⟨_, connect_mem_startStrokes.mpr ⟨n, hn, rfl, rfl, rfl, rfl⟩, rfl⟩

theorem mem_startingNames_adding {n : String} : n ∈ startingNames (actions.adding name a) ↔
    n ∈ startingNames actions ∨ (n = name ∧ a.runAfter = []) := by
  simp only [mem_startingNames, Actions.adding, List.mem_append, List.mem_singleton, Prod.mk.injEq]
  constructor
  · rintro ⟨b, hb | ⟨rfl, rfl⟩, hnone⟩
    · exact Or.inl ⟨b, hb, hnone⟩
    · exact Or.inr ⟨rfl, hnone⟩
  · rintro (⟨b, hb, hnone⟩ | ⟨rfl, hnone⟩)
    · exact ⟨b, Or.inl hb, hnone⟩
    · exact ⟨a, Or.inr ⟨rfl, rfl⟩, hnone⟩

/-- The lines of the larger tree are those of the tree with the arrow to the added action among
them, and more after them. -/
theorem Drawn.lines_adding {c c' : Conversion} {t' : Trip} (h : Drawn config actions c t)
    (h' : Drawn config (actions.adding name a) c' t') (hnew : Unrelated actions name a)
    (hids : ∀ d ∈ actions.declarations, nodeId d.name ≠ nodeId name) :
    let start := Canvas.blank.linesOfAll (startStrokes actions)
    ∃ rest new : List Line,
      Canvas.blank.linesOfAll (startStrokes actions ++ t.strokes) = start ++ rest ∧
      Canvas.blank.linesOfAll (startStrokes (actions.adding name a) ++ t'.strokes)
        = start ++ startEdge name a ++ rest ++ new := by
  obtain ⟨u, -, hstrokes, -⟩ := h.exists_rest h' hnew
  have hstart := linesOfAll_startStrokes_adding actions
    (fun s hs => h.arrow?_ne hids (List.mem_append_left _ hs)) (a := a)
  let before := (Canvas.blank.drawAll (startStrokes actions)).1
  let after := (Canvas.blank.drawAll (startStrokes (actions.adding name a))).1
  have hnoClass : ∀ g : Actions, ∀ s ∈ startStrokes g, s.class? = none := by
    intro g s hs
    cases s with
    | assign id style => simp [startStrokes] at hs
    | _ => rfl
  have hclasses : ∀ n, n ∈ before.classes ↔ n ∈ after.classes := by
    intro n
    have hnone : ∀ g : Actions, n ∉ (Canvas.blank.drawAll (startStrokes g)).1.classes := by
      intro g hn
      rcases Canvas.mem_classes_drawAll.mp hn with hblank | ⟨s, hs, hclass⟩
      · exact absurd hblank List.not_mem_nil
      · rw [hnoClass g s hs] at hclass
        cases hclass
    exact iff_of_false (hnone actions) (hnone _)
  have hsame : after.linesOfAll t.strokes = before.linesOfAll t.strokes := by
    refine (Canvas.linesOfAll_congr hclasses fun s hs e he => ?_).symm
    have hne := h.arrow?_ne hids (List.mem_append_right _ hs)
    rw [he] at hne
    rw [Canvas.mem_edges_drawAll, Canvas.mem_edges_drawAll, exists_arrow_startStrokes,
      exists_arrow_startStrokes]
    simp only [mem_startingNames_adding]
    refine or_congr_right ⟨?_, ?_⟩
    · rintro ⟨n, hn, hrender⟩
      exact ⟨n, Or.inl hn, hrender⟩
    · rintro ⟨n, hn | ⟨rfl, -⟩, hrender⟩
      · exact ⟨n, hn, hrender⟩
      · exact absurd (congrArg some hrender.symm) hne
  refine ⟨before.linesOfAll t.strokes, (after.drawAll t.strokes).1.linesOfAll u.strokes,
    Canvas.linesOfAll_append _ _ _, ?_⟩
  rw [hstrokes, Canvas.linesOfAll_append, Canvas.linesOfAll_append, hstart, hsame]
  simp only [List.append_assoc]
  rfl

/-- Whatever the added actions run after in the tree has been visited. -/
def Memo.Provides (m : Memo) (actions : Actions) (name : String) (a : Action) : Prop :=
  ∀ d ∈ actions.addition name a, ∀ k ∈ d.action.runAfter,
    (∃ e ∈ actions.declarations, e.name = k) → m.Visited k

/-- What the memory holds is kept, and if it provides what the added actions run after, only their
names are new to it. -/
theorem Drawn.memo_adding {c c' : Conversion} {t' : Trip} (h : Drawn config actions c t)
    (h' : Drawn config (actions.adding name a) c' t') (hnew : Unrelated actions name a) :
    ∃ (visits : Table String Progress) (exits : Table String (List String)),
      c'.memo.visits = c.memo.visits ++ visits ∧ c'.memo.exits = c.memo.exits ++ exits ∧
      (c.memo.Provides actions name a →
        ∀ n ∈ visits.keys ++ exits.keys, ∃ d ∈ actions.addition name a, d.name = n) := by
  obtain ⟨u, hu, -, hmemo⟩ := h.exists_rest h' hnew
  have hlater : c.memo.Later c'.memo := by
    rw [h.memo_eq, h'.memo_eq, hmemo]
    exact hu.later
  have hsound : c.memo.Sound := h.memo_eq ▸ h.walks.later.sound Memo.sound_empty
  have hsound' := hlater.sound hsound
  -- between walks nothing is being drawn, so what is visited is done
  have hrest : ∀ n, c.memo.progress? n ≠ some .underway := fun n hn => by
    rw [h.memo_eq, h.walks.underway_iff] at hn
    cases hn
  have hrest' : ∀ n, c'.memo.progress? n ≠ some .underway := fun n hn => by
    rw [h'.memo_eq, h'.walks.underway_iff] at hn
    cases hn
  have hkeys : c'.memo.visits.keys = c.memo.visits.keys ++ u.drawn.map Declaration.name := by
    rw [h.memo_eq, h'.memo_eq, hmemo, hu.keys_visits]
  obtain ⟨exits, hexits⟩ := hlater.exits_prefix hsound
  refine ⟨(u.drawn.map Declaration.name).map fun n => (n, .done), exits, ?_, hexits.symm, ?_⟩
  · rw [hsound'.visits_eq hrest', hkeys, List.map_append, ← hsound.visits_eq hrest]
  · intro hafter n hn
    have hdrawn : ∃ d ∈ u.drawn, d.name = n := by
      rw [← List.mem_map]
      rcases List.mem_append.mp hn with hn | hn
      · simpa [Table.keys] using hn
      · have hall : c'.memo.exits.keys = c.memo.exits.keys ++ Table.keys exits := by
          rw [← hexits, Table.keys, List.map_append]
          rfl
        have hdone := (hsound'.mem_exits n).mp (hall ▸ List.mem_append_right _ hn)
        have hnodup := hsound'.nodup_exits
        rw [hall, List.nodup_append] at hnodup
        have hvisited : n ∈ c'.memo.visits.keys :=
          Memo.mem_keys_visits.mpr (by simp [Memo.Visited, hdone])
        rw [hkeys] at hvisited
        refine (List.mem_append.mp hvisited).resolve_left fun hearlier => ?_
        have hearlier := (Memo.mem_keys_visits.mp hearlier).done (hrest n)
        exact hnodup.2.2 n ((hsound.mem_exits n).mpr hearlier) n hn rfl
    obtain ⟨d, hd, rfl⟩ := hdrawn
    refine ⟨d, hu.drawn_among (fun d hd c hc => children_mem_declarationsFrom hd hc) ?_ ?_ ?_ d hd,
      rfl⟩
    · intro d hd k hk
      by_cases hnewName : ∃ e ∈ actions.addition name a, e.name = k
      · exact Or.inr fun e he => mem_addition_of_lookup hnewName he
      · rw [lookup_index_of_old fun e he heq => hnewName ⟨e, he, heq⟩]
        cases hlookup : (Index.ofActions actions).1.lookup k with
        | none => exact Or.inr fun e he => by cases he
        | some e =>
          obtain ⟨hmem, hname⟩ := Index.mem_declarations hlookup
          exact Or.inl (h.memo_eq ▸ hafter d hd k hk ⟨e, hmem, hname⟩)
    · intro d hd
      rw [List.mem_singleton, Task.visit.injEq] at hd
      exact hd ▸ mem_addition_self
    · exact fun n k hk => by simp at hk

end Drawn

/-- Reading one more entry gives one more action. -/
theorem ofEntries_adding {entries : List (Value × Value)} {key raw : Value} {a : Action}
    (haction : (Action.ofValue key.text raw).1 = some a)
    (hnew : key.text ∉ Table.keys (Actions.ofEntries entries).1) :
    (Actions.ofEntries (entries ++ [(key, raw)])).1
      = (Actions.ofEntries entries).1.adding key.text a := by
  have hone : (Action.ofEntries [(key, raw)]).1 = [(key.text, a)] := by
    rw [Action.ofEntries_cons, haction, Action.ofEntries]
    rfl
  have hput : ∀ l : List (String × Action),
      Table.ofEntries (l ++ [(key.text, a)]) = (Table.ofEntries l).put key.text a := fun l => by
    rw [Table.ofEntries, List.foldl_append]
    rfl
  rw [Actions.ofEntries, Action.ofEntries_append, hone]
  exact (hput _).trans (Table.put_eq_append hnew a)

/-- An action is added after all others, under names that are new to the definition and with an id
that no action of it has. If there is a diagram with the action, there is one without it. Before the
legend, the lines with it are those without it, with an arrow from the start node if the action
runs after nothing, and then more lines; what the memory holds is kept in the same way. What is
visited besides is only what was added, if everything in the definition that the added actions run
after has been visited without them. In a tree of distinct names it has. -/
theorem convert_addition {config : Config} {log log' : Log} {definition definition' : Value}
    {key raw : Value} {a : Action} {c' : Conversion}
    (htree : Definition.tree? definition = some actions)
    (hadded : Definition.actions? definition'
      = (Definition.actions? definition).map (· ++ [(key, raw)]))
    (haction : (Action.ofValue key.text raw).1 = some a)
    (hnew : Unrelated actions key.text a)
    (hids : ∀ d ∈ actions.declarations, nodeId d.name ≠ nodeId key.text)
    (h' : (convert config log' definition').2 = .ok c') :
    ∃ c, (convert config log definition).2 = .ok c ∧
      (∃ rest new : List Line,
        let start := Canvas.blank.linesOfAll (startStrokes actions)
        let legend := fun body => if config.legend then legendOf config.styles body else []
        c.canvas.lines = start ++ rest ++ legend (start ++ rest) ∧
        c'.canvas.lines = start ++ startEdge key.text a ++ rest ++ new
          ++ legend (start ++ startEdge key.text a ++ rest ++ new)) ∧
      ∃ (visits : Table String Progress) (exits : Table String (List String)),
        c'.memo.visits = c.memo.visits ++ visits ∧ c'.memo.exits = c.memo.exits ++ exits ∧
        (c.memo.Provides actions key.text a →
          ∀ n ∈ visits.keys ++ exits.keys, ∃ d ∈ actions.addition key.text a, d.name = n) ∧
        (actions.Distinct → c.memo.Provides actions key.text a) := by
  obtain ⟨entries, hentries, rfl⟩ := Option.map_eq_some_iff.mp htree
  rw [hentries, Option.map_some] at hadded
  have hfresh : key.text ∉ Table.keys (Actions.ofEntries entries).1 := by
    intro hkey
    obtain ⟨⟨n, b⟩, hb, hname⟩ := List.mem_map.mp hkey
    refine (hnew _ mem_addition_self _
      (root_mem_declarations (Actions.mem_children.mpr ⟨n, b, hb, rfl⟩))).1 ?_
    exact hname.symm
  have hread := ofEntries_adding haction hfresh
  obtain ⟨t, ht, hhalts⟩ := ofEntries_halts config entries
  obtain ⟨t', ht', hhalts'⟩ := ofEntries_halts config (entries ++ [(key, raw)])
  have hc' : c' = Conversion.ofEntries config (entries ++ [(key, raw)]) := by
    simp only [convert, hadded] at h'
    split at h'
    · cases h'
    · exact (Except.ok.inj h').symm
  rw [← hc'] at ht' hhalts'
  rw [hread] at ht'
  -- what would halt the work would halt it with the added action too
  have hhalt : (Conversion.ofEntries config entries).halt? = none := by
    obtain ⟨u, -, hstrokes, -⟩ := ht.exists_rest ht' hnew
    rw [convert_halt? h', hstrokes, Action.ofEntries_append, Event.halt?_append,
      List.findSome?_append, eq_comm, Option.or_eq_none_iff, Option.or_eq_none_iff,
      Option.or_eq_none_iff] at hhalts'
    rw [hhalts, hhalts'.1.1, hhalts'.2.1, Option.none_or]
  obtain ⟨rest, new, hbody, hbody'⟩ := ht.lines_adding ht' hnew hids
  obtain ⟨visits, exits, hvisits, hexits, honly⟩ := ht.memo_adding ht' hnew
  refine ⟨_, convert_eq_ok hentries hhalt, ⟨rest, new, ?_, ?_⟩, visits, exits, hvisits, hexits,
    honly, fun hdist d _ k _ hk => ?_⟩
  · rw [← hbody]
    exact ht.lines_eq_legend
  · rw [← hbody']
    exact ht'.lines_eq_legend
  · obtain ⟨e, he, rfl⟩ := hk
    rw [Memo.Visited, ht.done hdist e he]
    exact Option.some_ne_none _

/-- After the sample comes a box that runs after an action inside its switch. -/
theorem convert_addition_sample :
    let box : Action := .scope .scope ["Send"] [("Zip", .simple "Compose" [] [])]
    ∃ c c', (convert {} ⟨[], []⟩ (definitionOf sampleActions.entries)).2 = .ok c ∧
      (convert {} ⟨[], []⟩ (definitionOf (sampleActions.adding "Archive" box).entries)).2 = .ok c' ∧
      ∃ (visits : Table String Progress) (exits : Table String (List String)),
        c'.memo.visits = c.memo.visits ++ visits ∧ c'.memo.exits = c.memo.exits ++ exits ∧
        ∀ n ∈ visits.keys ++ Table.keys exits, n = "Archive" ∨ n = "Zip" := by
  intro box
  have hreadable : sampleActions.Readable := by decide
  have hreadable' : (sampleActions.adding "Archive" box).Readable := by decide
  have haccepted := hreadable'.convert_definitionOf ⟨[], []⟩
    (show (Conversion.ofActions {} (sampleActions.adding "Archive" box)).halt? = none by
      decide +kernel)
  have hmem : ("Archive", box) ∈ sampleActions.adding "Archive" box :=
    List.mem_append_right _ List.mem_cons_self
  have haction : (Action.ofValue (Value.str "Archive").text
      (.map (box.commonFields ++ box.partFields))).1 = some box :=
    congrArg Prod.fst (hreadable'.ofValue_description hmem)
  obtain ⟨c, hc, -, visits, exits, hvisits, hexits, honly, hprovides⟩ :=
    convert_addition hreadable.tree?_definitionOf rfl haction (by unfold Unrelated; decide)
      (by decide) haccepted
  refine ⟨c, _, hc, haccepted, visits, exits, hvisits, hexits, fun n hn => ?_⟩
  have hnames : ∀ d ∈ sampleActions.addition "Archive" box,
      d.name = "Archive" ∨ d.name = "Zip" := by decide
  obtain ⟨d, hd, rfl⟩ := honly (hprovides distinct_sample) n hn
  exact hnames d hd

/-- A box is declared again as a step, so an action inside it is not drawn until an added action
runs after it. -/
theorem convert_addition_forced :
    let step : Action := .simple "Compose" ["B"] []
    Unrelated boxActions "Notify" step ∧
      (∀ d ∈ boxActions.declarations, nodeId d.name ≠ nodeId "Notify") ∧
      ∃ c c', (convert {} ⟨[], []⟩ (definitionOf boxActions.entries)).2 = .ok c ∧
        (convert {} ⟨[], []⟩ (definitionOf (boxActions.adding "Notify" step).entries)).2 = .ok c' ∧
        (∃ d ∈ boxActions.declarations, d.name = "B") ∧
        c.memo.progress? "B" = none ∧ c'.memo.progress? "B" = some .done := by
  intro step
  have hreadable : boxActions.Readable := by decide
  have hreadable' : (boxActions.adding "Notify" step).Readable := by decide
  refine ⟨by unfold Unrelated; decide, by decide, _, _,
    hreadable.convert_definitionOf ⟨[], []⟩ (by decide +kernel),
    hreadable'.convert_definitionOf ⟨[], []⟩ (by decide +kernel), ?_⟩
  decide +kernel

end Diagram

end Flowchart
