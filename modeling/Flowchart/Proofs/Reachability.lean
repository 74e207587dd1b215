import Mathlib.Data.Fintype.EquivFin
import Flowchart.Proofs.Arrows
import Flowchart.Proofs.Descent
import Flowchart.Proofs.Endpoints
import Flowchart.Proofs.Reports

/-!
# Reaching every action

In a tree whose actions form sequences, every action of the diagram can be reached from the start
node along the arrows.

* `Actions.Sequential` says which trees these are, and `Actions.Sequential.induction` is the
  induction along the actions that an action runs after;
* `Line.ends_of_render_eq`: an arrow that is left out since its text is there already has the ends
  of the one that is there, so `Drawn.leads_of_connect` has an arrow for each stroke that asks for
  one;
* `Memo.Within` says that the exit nodes of an action are nodes inside it, and `Walks.leadsOn` that
  a trip draws the arrows into groups and an arrow from inside each action that another runs after;
* `convert_reaches`: by induction over the tree, and along the sequence in each group, every action
  is reached.
-/

namespace Flowchart

open Diagram

/-! ## Sequences -/

/-- The groups inside an action that are entered at their first action only. -/
def Action.sequences : Action → List Actions
  | simple _ _ _ => []
  | condition _ yes no => [yes, no]
  | switch _ cases _ => cases.map Prod.snd
  | scope _ _ body => [body]

/-- An action of this name runs after `k`. -/
def Actions.RunsAfter (actions : Actions) (n k : String) : Prop :=
  ∃ d ∈ actions.declarations, d.name = n ∧ k ∈ d.action.runAfter

/-- A tree of different names in which actions run after their siblings, never after themselves
through others, and in which the first action of each sequence is the only one in it that may run
after nothing. -/
structure Actions.Sequential (actions : Actions) : Prop where
  distinct : actions.Distinct
  siblings : ∀ d ∈ actions.declarations, ∀ k ∈ d.action.runAfter, k ∈ d.container.keys
  acyclic : ∀ n, ¬ Relation.TransGen actions.RunsAfter n n
  first : ∀ d ∈ actions.declarations, ∀ g ∈ d.action.sequences, ∀ e ∈ g,
    e.2.runAfter = [] → g.keys.head? = some e.1

theorem wellFounded_of_acyclic {α : Type} [Finite α] {r : α → α → Prop}
    (h : ∀ a, ¬ Relation.TransGen r a a) : WellFounded r := by
  have : IsTrans α (Relation.TransGen r) := ⟨fun _ _ _ => Relation.TransGen.trans⟩
  have : Std.Irrefl (Relation.TransGen r) := ⟨h⟩
  exact Subrelation.wf (fun h => Relation.TransGen.single h)
    (Finite.wellFounded_of_trans_of_irrefl (Relation.TransGen r))

/-- A tree has finitely many names, so without a cycle no action runs after others forever. -/
theorem Actions.Sequential.wellFounded {actions : Actions} (hs : actions.Sequential) :
    WellFounded fun k n : {n // n ∈ actions.declarations.map Declaration.name} =>
      actions.RunsAfter n k := by
  refine wellFounded_of_acyclic fun n hn => hs.acyclic n ?_
  exact Relation.TransGen.lift Subtype.val (fun _ _ h => h) _ _ (Relation.transGen_swap.mp hn)

/-- Induction along the actions that an action runs after. -/
theorem Actions.Sequential.induction {actions : Actions} (hs : actions.Sequential)
    {P : Declaration → Prop}
    (h : ∀ d ∈ actions.declarations,
      (∀ e ∈ actions.declarations, e.name ∈ d.action.runAfter → P e) → P d) :
    ∀ d ∈ actions.declarations, P d := by
  have hname : ∀ d ∈ actions.declarations, d.name ∈ actions.declarations.map Declaration.name :=
    fun d hd => List.mem_map_of_mem hd
  intro d hd
  generalize hn : (⟨d.name, hname d hd⟩ : {n // n ∈ actions.declarations.map Declaration.name}) = n
  induction n using hs.wellFounded.induction generalizing d with
  | h n ih =>
    subst hn
    exact h d hd fun e he hafter => ih ⟨e.name, hname e he⟩ ⟨d, hd, rfl, hafter⟩ e he rfl

/-- No action runs after itself if the names can be numbered so that each action is above those that
it runs after. -/
theorem Actions.runsAfter_acyclic_of_rank {actions : Actions} (rank : String → Nat)
    (h : ∀ d ∈ actions.declarations, ∀ k ∈ d.action.runAfter, rank k < rank d.name) :
    ∀ n, ¬ Relation.TransGen actions.RunsAfter n n := by
  have hlt : ∀ n k, Relation.TransGen actions.RunsAfter n k → rank k < rank n := by
    intro n k hpath
    induction hpath with
    | single hafter =>
      obtain ⟨d, hd, rfl, hk⟩ := hafter
      exact h d hd _ hk
    | tail _ hafter ih =>
      obtain ⟨d, hd, rfl, hk⟩ := hafter
      exact Nat.lt_trans (h d hd _ hk) ih
  exact fun n hpath => Nat.lt_irrefl _ (hlt n n hpath)

/-- A member of a group that runs after nothing is one that the group is entered at. -/
theorem Actions.Sequential.leads {actions : Actions} (hs : actions.Sequential) {d c : Declaration}
    (hd : d ∈ actions.declarations) (hc : c ∈ d.children) (hfirst : c.action.runAfter = []) :
    ∃ text, d.action.Leads c.name text := by
  have hhead := hs.first d hd
  obtain ⟨b, hb, hc⟩ := Declaration.mem_children.mp hc
  obtain ⟨n, a, hmem, rfl⟩ := Actions.mem_children.mp hc
  have hkey : n ∈ b.keys := List.mem_map.mpr ⟨_, hmem, rfl⟩
  obtain ⟨name, action, path, container⟩ := d
  cases action with
  | simple kind runAfter body =>
    cases List.mem_singleton.mp hb
    exact ⟨_, .step hkey⟩
  | condition runAfter yes no =>
    rcases List.mem_pair.mp hb with rfl | rfl
    · exact ⟨_, .yes (hhead _ (.head _) _ hmem hfirst)⟩
    · exact ⟨_, .no (hhead _ (.tail _ (.head _)) _ hmem hfirst)⟩
  | switch runAfter cases default =>
    rcases Action.mem_bodies_switch.mp hb with ⟨label, hcase⟩ | rfl
    · exact ⟨_, .case hcase (hhead b (List.mem_map.mpr ⟨_, hcase, rfl⟩) _ hmem hfirst)⟩
    · exact ⟨_, .default hkey⟩
  | scope kind runAfter body =>
    cases List.mem_singleton.mp hb
    exact ⟨_, .scope (hhead _ (.head _) _ hmem hfirst)⟩

namespace Diagram

/-! ## Arrows by their texts -/

theorem space_not_mem_nodeId (name : String) : ' ' ∉ (nodeId name).toList := by
  have hword : ' ' ∉ wordImage name.toList := by
    intro h
    obtain ⟨c, -, hc⟩ := List.mem_map.mp h
    split at hc
    · rename_i hkept
      rw [hc] at hkept
      exact absurd hkept (by decide)
    · exact absurd hc (by decide)
  rw [nodeId, String.toList_ofList, startWithLetter]
  split
  · exact hword
  · simp [hword]

/-- The text of an arrow starts with its source and ends with its target. -/
theorem Line.toList_render_edge (source target : String) (label : Option String) :
    ∃ between, (Line.edge source target label).render.toList
      = source.toList ++ ' ' :: (between ++ ' ' :: target.toList) := by
  cases label with
  | none => exact ⟨"-->".toList, by simp⟩
  | some label => exact ⟨"-- ".toList ++ label.toList ++ " -->".toList, by simp⟩

theorem takeWhile_append_space {xs : List Char} (h : ' ' ∉ xs) (rest : List Char) :
    (xs ++ ' ' :: rest).takeWhile (· != ' ') = xs := by
  have hxs : ∀ c ∈ xs, (c != ' ') = true := by
    intro c hc
    rw [bne_iff_ne]
    rintro rfl
    exact h hc
  rw [List.takeWhile_append_of_pos hxs, List.takeWhile_cons_of_neg (by simp), List.append_nil]

/-- Arrows between ids that are written alike have the same ends. -/
theorem Line.ends_of_render_eq {source target source' target' : String}
    {label label' : Option String} (hsource : ' ' ∉ source.toList) (htarget : ' ' ∉ target.toList)
    (hsource' : ' ' ∉ source'.toList) (htarget' : ' ' ∉ target'.toList)
    (h : (Line.edge source target label).render = (Line.edge source' target' label').render) :
    source = source' ∧ target = target' := by
  obtain ⟨between, hrender⟩ := toList_render_edge source target label
  obtain ⟨between', hrender'⟩ := toList_render_edge source' target' label'
  rw [h, hrender'] at hrender
  constructor
  · have hfirst := congrArg (List.takeWhile (· != ' ')) hrender
    rw [takeWhile_append_space hsource, takeWhile_append_space hsource'] at hfirst
    exact (String.toList_inj.mp hfirst).symm
  · have hlast := congrArg (fun cs => cs.reverse.takeWhile (· != ' ')) hrender
    simp only [List.reverse_append, List.reverse_cons, List.append_assoc, List.cons_append,
      List.nil_append] at hlast
    rw [takeWhile_append_space (by simpa using htarget'),
      takeWhile_append_space (by simpa using htarget), List.reverse_inj] at hlast
    exact (String.toList_inj.mp hlast).symm

/-- An arrow of the diagram leads from one node to another. -/
def Canvas.Leads (c : Canvas) (source target : String) : Prop :=
  ∃ label, Line.edge source target label ∈ c.lines

/-- Arrows of the diagram lead from one node to another, one after the other. -/
def Canvas.Reaches (c : Canvas) : String → String → Prop := Relation.ReflTransGen c.Leads

section Drawn

variable {config : Config} {actions : Actions} {c : Conversion} {t : Trip}

theorem Drawn.space_not_mem (h : Drawn config actions c t) {source target note : String}
    {text : Option String}
    (hmem : .connect source target text note ∈ startStrokes actions ++ t.strokes) :
    ' ' ∉ source.toList ∧ ' ' ∉ target.toList := by
  rcases List.mem_append.mp hmem with hmem | hmem
  · obtain ⟨name, -, rfl, rfl, -, -⟩ := connect_mem_startStrokes.mp hmem
    exact ⟨by decide, space_not_mem_nodeId name⟩
  · obtain ⟨⟨n, -, rfl⟩, k, -, rfl⟩ := h.grounded.arrows _ _ _ _ hmem
    exact ⟨space_not_mem_nodeId n, space_not_mem_nodeId k⟩

/-- There is an arrow wherever a stroke asks for one, if only an earlier one of the same text. -/
theorem Drawn.leads_of_connect (h : Drawn config actions c t) {source target note : String}
    {text : Option String}
    (hmem : .connect source target text note ∈ startStrokes actions ++ t.strokes) :
    c.canvas.Leads source target := by
  have htext : (Line.ofEdge source target text).render ∈ edgeTexts c.canvas.lines :=
    h.mem_edgeTexts.mpr ⟨_, hmem, rfl⟩
  obtain ⟨l, hl, hrender⟩ := List.mem_map.mp htext
  rw [List.mem_filter] at hl
  cases l with
  | edge source' target' label =>
    obtain ⟨text', note', hmem'⟩ := h.connect_of_edge_mem hl.1
    obtain ⟨hsource, htarget⟩ := h.space_not_mem hmem
    obtain ⟨hsource', htarget'⟩ := h.space_not_mem (List.mem_append.mpr hmem')
    obtain ⟨rfl, rfl⟩ :=
      Line.ends_of_render_eq hsource' htarget' hsource htarget hrender
    exact ⟨label, hl.1⟩
  | _ => exact absurd hl.2 Bool.false_ne_true

end Drawn

/-! ## Where exits are -/

end Diagram

/-- The node of this id is the node of the declared action or of one inside it. -/
def Declaration.Covers (d : Declaration) (id : String) : Prop :=
  ∃ e, d.Holds e ∧ nodeId e.name = id

namespace Diagram

variable {actions : Actions} {styles : StyleTable} {ts : List Task} {m : Memo} {t : Trip}

/-- The exit nodes that are kept for an action are in it. -/
def Memo.Within (m : Memo) (actions : Actions) : Prop :=
  ∀ d ∈ actions.declarations, ∀ xs, m.exits.lookup d.name = some xs → ∀ x ∈ xs, d.Covers x

/-- The nodes at which the task may end. -/
def Task.Covers (id : String) : Task → Prop
  | leave own _ => id = own
  | visit d => d.Covers id
  | wire _ _ _ _ | depend _ _ => False

/-- An action continues from a node that is in it. -/
theorem Memo.Within.covers_of_mem (h : m.Within actions) {d : Declaration}
    (hd : d ∈ actions.declarations) : ∀ x ∈ m.exitsOf d.name, d.Covers x := by
  intro x hx
  rw [exitsOf] at hx
  split at hx
  · rename_i first rest hlookup
    exact h d hd _ hlookup x hx
  · exact ⟨d, .refl, (List.mem_singleton.mp hx).symm⟩

theorem leave_mem_tasks {d : Declaration} {id : String} {r : Diagnostic}
    (h : .leave id r ∈ d.tasks) : id = nodeId d.name := by
  obtain ⟨g, -, h⟩ := List.mem_flatMap.mp h
  rw [Group.tasks] at h
  split at h
  · exact absurd h leave_not_mem_memberTasks
  · simp only [List.mem_singleton, Task.leave.injEq] at h
    exact h.1
  · exact absurd h List.not_mem_nil

/-- Whatever the groups inside an action end at is in the action. -/
theorem covers_of_tasks {d : Declaration} {task : Task} (htask : task ∈ d.tasks) {x : String}
    (hx : task.Covers x) : d.Covers x := by
  cases task with
  | leave id r => exact ⟨d, .refl, (hx.trans (leave_mem_tasks htask)).symm⟩
  | visit c =>
    obtain ⟨e, he, hid⟩ := hx
    exact ⟨e, .head (visit_mem_tasks.mp htask) he, hid⟩
  | wire source target text note => exact hx.elim
  | depend name dependency => exact hx.elim

theorem covers_exitsFrom {d : Declaration} {inside : List String}
    (h : ∀ x ∈ inside, ∃ task ∈ d.tasks, task.Covers x) : ∀ x ∈ d.exitsFrom inside, d.Covers x := by
  intro x hx
  rcases mem_exitsFrom hx with rfl | hx
  · exact ⟨d, .refl, rfl⟩
  · obtain ⟨task, htask, hx⟩ := h x hx
    exact covers_of_tasks htask hx

theorem Memo.Within.finish (h : m.Within actions) (hdist : actions.Distinct) {d : Declaration}
    (hd : d ∈ actions.declarations) {xs : List String} (hxs : ∀ x ∈ xs, d.Covers x) :
    (m.finish d.name xs).Within actions := by
  intro e he ys hys
  rw [lookup_exits_finish] at hys
  split at hys
  · rename_i hname
    cases hys
    rwa [hdist.eq_of_name he hd hname]
  · exact h e he ys hys

/-- A trip ends in the actions that it was to visit, and keeps the exit nodes of others in them. -/
theorem Walks.within (hdist : actions.Distinct) (h : Walks actions styles ts m t)
    (hm : m.Within actions) :
    (∀ x ∈ t.exits, ∃ task ∈ ts, task.Covers x) ∧ t.memo.Within actions := by
  have hcons : ∀ {task : Task} {ts : List Task} {own : List String} {t : Trip},
      (∀ x ∈ own, task.Covers x) → (∀ x ∈ t.exits, ∃ task ∈ ts, task.Covers x) →
      ∀ x ∈ own ++ t.exits, ∃ task' ∈ task :: ts, task'.Covers x := by
    intro task ts own t hown hrest x hx
    rcases List.mem_append.mp hx with hx | hx
    · exact ⟨task, List.mem_cons_self, hown x hx⟩
    · obtain ⟨task', htask', hx⟩ := hrest x hx
      exact ⟨task', List.mem_cons_of_mem _ htask', hx⟩
  induction h with
  | nil m => exact ⟨by simp, hm⟩
  | wire _ ih | unknown _ _ ih | met _ _ _ ih =>
    exact ⟨hcons (by simp) (ih hm).1, (ih hm).2⟩
  | leave _ ih => exact ⟨hcons (by simp [Task.Covers]) (ih hm).1, (ih hm).2⟩
  | again declared _ _ ih => exact ⟨hcons (hm.covers_of_mem declared) (ih hm).1, (ih hm).2⟩
  | @fresh d ts m before inside t declared _ _ _ _ ih₁ ih₂ ih₃ =>
    have hbefore := ih₁ hm
    have hinside := ih₂ hbefore.2
    have hexits := covers_exitsFrom hinside.1
    have hrest := ih₃ (hinside.2.finish hdist declared hexits)
    exact ⟨hcons hexits hrest.1, hrest.2⟩
  | force _ _ _ _ ih₁ ih₂ =>
    have hrest := ih₂ (ih₁ hm).2
    exact ⟨hcons (by simp) hrest.1, hrest.2⟩

/-! ## Arrows of a walk -/

/-- The strokes draw the arrow that the task asks for; an action that runs after another has an
arrow from a node in the other. -/
def Task.Led (actions : Actions) (ss : List Stroke) : Task → Prop
  | wire source target text note => .connect source (nodeId target) text note ∈ ss
  | depend name dependency => ∀ e ∈ actions.declarations, e.name = dependency →
      ∃ x, e.Covers x ∧ .connect x (nodeId name) none "" ∈ ss
  | leave _ _ | visit _ => True

theorem lasting_led : Lasting fun ss task => task.Led actions ss := by
  intro ss ss' task hsub h
  cases task with
  | wire source target text note => exact hsub h
  | depend name dependency =>
    intro e he hname
    obtain ⟨x, hx, hmem⟩ := h e he hname
    exact ⟨x, hx, hsub hmem⟩
  | leave id r => trivial
  | visit d => trivial

/-- A declared action leads on from a node in it, whatever is known about it. -/
theorem Memo.Within.led_of_arrows (hm : m.Within actions) (hdist : actions.Distinct)
    {d : Declaration} (hd : d ∈ actions.declarations) {name : String} {ss : List Stroke}
    (hss : ∀ s ∈ m.arrows name d.name, s ∈ ss) : (Task.depend name d.name).Led actions ss := by
  intro e he hname
  rw [hdist.eq_of_name he hd hname]
  obtain ⟨x, hx⟩ : ∃ x, x ∈ m.exitsOf d.name := by
    rw [exitsOf]
    split
    · exact ⟨_, List.mem_cons_self⟩
    · exact ⟨_, List.mem_cons_self⟩
  exact ⟨x, hm.covers_of_mem hd x hx, hss _ (connect_mem_arrows.mpr ⟨hx, rfl, rfl, rfl⟩)⟩

/-- Every trip draws the arrows that its tasks and the actions drawn on it ask for. -/
theorem Walks.leadsOn (hdist : actions.Distinct) (h : Walks actions styles ts m t)
    (hm : m.Within actions) : t.Answers (fun ss task => task.Led actions ss) ts := by
  induction h with
  | nil m => exact .nil _ m
  | wire _ ih => exact (ih hm).cons lasting_led List.mem_cons_self (by simp)
  | leave _ ih | again _ _ _ ih => exact (ih hm).cons lasting_led trivial (by simp)
  | @fresh d ts m before inside t declared _ dependencies groups _ ih₁ ih₂ ih₃ =>
    have hwithin := (dependencies.within hdist hm).2
    obtain ⟨hexits, hwithin'⟩ := groups.within hdist hwithin
    have hrest := ih₃ (hwithin'.finish hdist declared (covers_exitsFrom hexits))
    exact hrest.fresh lasting_led (ih₁ hm) (ih₂ hwithin) (fun _ hs => by simp [hs])
      (fun _ hs => by simp [hs]) trivial
  | @unknown name dependency ts m t absent _ ih =>
    refine (ih hm).cons lasting_led ?_ (by simp)
    rintro e he rfl
    have hknown := Index.lookup_isSome he
    rw [absent] at hknown
    exact absurd hknown Bool.false_ne_true
  | @met name dependency d state ts m t known _ _ ih =>
    obtain ⟨hd, rfl⟩ := Index.mem_declarations known
    exact (ih hm).cons lasting_led
      (hm.led_of_arrows hdist hd fun _ hs => List.mem_append_right _ hs) (by simp)
  | @force name dependency d ts m first t known _ drawn _ ih₁ ih₂ =>
    obtain ⟨hd, rfl⟩ := Index.mem_declarations known
    have hfirst := (drawn.within hdist hm).2
    exact (ih₂ hfirst).cons lasting_led
      (hfirst.led_of_arrows hdist hd fun _ hs => List.mem_append_right _ hs)
      fun e he task htask => lasting_led _ _ _ (List.subset_append_left _ _)
        ((ih₁ hm).drawn e he task htask)

/-! ## Reaching the actions -/

section Drawn

variable {config : Config} {c : Conversion}

/-- In a tree of distinct names every task of a declared action is seen to. -/
theorem Drawn.led (h : Drawn config actions c t) (hdist : actions.Distinct) {d : Declaration}
    (hd : d ∈ actions.declarations) {task : Task}
    (htask : task ∈ d.dependencyTasks ∨ task ∈ d.tasks) : task.Led actions t.strokes := by
  have hempty : Memo.Within .empty actions := fun d hd xs hxs => by
    simp [Memo.empty] at hxs
  exact (h.walks.leadsOn hdist hempty).drawn d (h.walks.mem_drawn hdist d hd) task htask

/-- If the node of an action is reached, so are the members of its groups that run after nothing. -/
theorem Drawn.leads_of_first (h : Drawn config actions c t) (hs : actions.Sequential)
    {d e : Declaration} (hd : d ∈ actions.declarations) (he : e ∈ d.children)
    (hfirst : e.action.runAfter = []) : c.canvas.Leads (nodeId d.name) (nodeId e.name) := by
  obtain ⟨text, hleads⟩ := hs.leads hd he hfirst
  obtain ⟨note, hwire⟩ := wire_mem_tasks.mpr ⟨rfl, hleads⟩
  exact h.leads_of_connect (List.mem_append_right _ (h.led hs.distinct hd (Or.inr hwire)))

/-- An action is entered from inside each sibling that it runs after. -/
theorem Drawn.leads_of_after (h : Drawn config actions c t) (hs : actions.Sequential)
    {d e : Declaration} (hd : d ∈ actions.declarations) (he : e ∈ actions.declarations)
    (hafter : e.name ∈ d.action.runAfter) :
    ∃ x, e.Covers x ∧ c.canvas.Leads x (nodeId d.name) := by
  have hdepend : Task.depend d.name e.name ∈ d.dependencyTasks := List.mem_map_of_mem hafter
  obtain ⟨x, hx, hmem⟩ := h.led hs.distinct hd (Or.inl hdepend) e he rfl
  exact ⟨x, hx, h.leads_of_connect (List.mem_append_right _ hmem)⟩

/-- All members of a group are reached if those are that run after nothing, and if a member that is
reached gives everything inside it. This is the induction along the sequence. -/
theorem Drawn.reaches_members (h : Drawn config actions c t) (hs : actions.Sequential)
    {path : List String} {g : Actions} (hg : ∀ d ∈ g.children path, d ∈ actions.declarations)
    (hfirst : ∀ d ∈ g.children path, d.action.runAfter = [] →
      c.canvas.Reaches startId (nodeId d.name))
    (hinside : ∀ d ∈ g.children path, c.canvas.Reaches startId (nodeId d.name) →
      ∀ x, d.Covers x → c.canvas.Reaches startId x) :
    ∀ d ∈ g.children path, c.canvas.Reaches startId (nodeId d.name) := by
  suffices hall : ∀ d ∈ actions.declarations, d ∈ g.children path →
      c.canvas.Reaches startId (nodeId d.name) from fun d hd => hall d (hg d hd) hd
  refine hs.induction fun d hd ih hmember => ?_
  cases hafter : d.action.runAfter with
  | nil => exact hfirst d hmember hafter
  | cons k rest =>
    have hk : k ∈ d.action.runAfter := hafter ▸ List.mem_cons_self
    -- the action runs after a sibling, which is a member of the same group
    obtain ⟨⟨n, a⟩, hsibling, rfl⟩ := List.mem_map.mp (hs.siblings d hd k hk)
    obtain ⟨n', a', hmem, rfl⟩ := Actions.mem_children.mp hmember
    have he : (⟨n, a, path, g⟩ : Declaration) ∈ g.children path :=
      Actions.mem_children.mpr ⟨n, a, hsibling, rfl⟩
    obtain ⟨x, hx, hleads⟩ := h.leads_of_after hs hd (hg _ he) hk
    exact (hinside _ he (ih _ (hg _ he) hk he) x hx).tail hleads

/-- If an action is reached, so is everything inside it. This is the induction over the tree. -/
theorem Drawn.reaches_covered (h : Drawn config actions c t) (hs : actions.Sequential) :
    ∀ d ∈ actions.declarations, c.canvas.Reaches startId (nodeId d.name) →
      ∀ x, d.Covers x → c.canvas.Reaches startId x := by
  apply declarations_inside_out
  rintro d hd ih hreach x ⟨e, he, rfl⟩
  rcases Relation.ReflTransGen.cases_head he with rfl | ⟨b, hb, he⟩
  · exact hreach
  · obtain ⟨g, hg, hmember⟩ := Declaration.mem_children.mp hb
    have hchild : ∀ c ∈ g.children (d.path ++ [d.name]), c ∈ d.children := fun c hc =>
      Declaration.mem_children.mpr ⟨g, hg, hc⟩
    have hmembers := h.reaches_members hs
      (fun c hc => children_mem_declarations hd (hchild c hc))
      (fun c hc hfirst => hreach.tail (h.leads_of_first hs hd (hchild c hc) hfirst))
      (fun c hc => ih c (hchild c hc))
    exact ih b hb (hmembers b hmember) _ ⟨e, he, rfl⟩

end Drawn

/-- If the actions of an accepted definition form sequences, the diagram declares the node of every
action, and arrows lead to it from the start node. -/
theorem convert_reaches {config : Config} {log : Log} {definition : Value} {c : Conversion}
    (h : (convert config log definition).2 = .ok c)
    (htree : Definition.tree? definition = some actions) (hs : actions.Sequential) :
    ∀ d ∈ actions.declarations,
      c.canvas.Declares (nodeId d.name) ∧ c.canvas.Reaches startId (nodeId d.name) := by
  obtain ⟨t, ht⟩ := convert_drawn_of_tree h htree
  have hroots := ht.reaches_members hs (g := actions) (fun d hd => root_mem_declarations hd)
    (fun d hd hfirst => by
      obtain ⟨n, a, hmem, rfl⟩ := Actions.mem_children.mp hd
      have hstart := connect_mem_startStrokes.mpr
        ⟨n, mem_startingNames.mpr ⟨a, hmem, hfirst⟩, rfl, rfl, rfl, rfl⟩
      exact .single (ht.leads_of_connect (List.mem_append_left _ hstart)))
    (fun d hd => ht.reaches_covered hs d (root_mem_declarations hd))
  have hreaches : ∀ d ∈ actions.declarations, c.canvas.Reaches startId (nodeId d.name) := by
    apply declarations_induction
    · exact hroots
    · exact fun d hd hreach e he =>
        ht.reaches_covered hs d hd hreach _ ⟨e, .single he, rfl⟩
  intro d hd
  exact ⟨ht.declares_iff.mpr (Or.inr ⟨d, ht.walks.mem_drawn hs.distinct d hd, rfl⟩), hreaches d hd⟩

/-- In the nested sample the last action is reached, through a loop and a switch without cases. -/
theorem convert_reaches_nested :
    (Conversion.ofEntries {} nestedEntries).canvas.Reaches "Start" "Done" := by
  have hsequential : nestedActions.Sequential := by
    refine ⟨distinct_nested, by decide, ?_, by decide⟩
    exact Actions.runsAfter_acyclic_of_rank
      (fun n => if n = "Done" then 2 else if n = "Route" ∨ n = "Store" then 1 else 0) (by decide)
  have hdone : nestedActions.declarations[5] ∈ nestedActions.declarations := List.getElem_mem _
  exact (convert_reaches convert_nested tree?_nested hsequential _ hdone).2

end Diagram

end Flowchart
