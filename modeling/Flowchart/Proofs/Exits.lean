import Mathlib.Logic.Relation
import Flowchart.Proofs.Drawing
import Flowchart.Proofs.Ends

/-!
# The exit nodes that a walk records

In a tree without cycles the walk records for each action the exit nodes that recursion on the
action gives, whenever it comes to the action.

* `Actions.Needs` relates an action to those that are drawn before it is finished: the actions that
  it runs after and the ones inside it. `Actions.Acyclic` says that no action needs itself;
* `Memo.Knows` says that the memory has the right exit nodes for all finished actions, and `Ahead`
  that the pending tasks are needed by every action that is being drawn, so none of them is being
  drawn itself;
* `Walks.exits_eq`: these two carry through a trip, which then ends where its tasks should;
* `convert_exits` says so of the exit nodes in a diagram.
-/

namespace Flowchart

/-! ## Dependencies -/

/-- The action `n` runs after the declared action `k`, or holds it directly. -/
inductive Actions.Needs (actions : Actions) (n k : String) : Prop where
  | dependency (d e : Declaration) (hd : d ∈ actions.declarations) (he : e ∈ actions.declarations)
      (name : d.name = n) (needed : e.name = k) (after : k ∈ d.action.runAfter)
  | child (d e : Declaration) (hd : d ∈ actions.declarations) (name : d.name = n)
      (needed : e.name = k) (inside : e ∈ d.children)

/-- No action needs itself, directly or through others. -/
def Actions.Acyclic (actions : Actions) : Prop :=
  ∀ n, ¬ Relation.TransGen actions.Needs n n

/-- A tree is acyclic if its actions can be numbered so that each is above those that it runs after
and those inside it. -/
theorem Actions.acyclic_of_rank {actions : Actions} (rank : String → Nat)
    (h : ∀ d ∈ actions.declarations, (∀ k ∈ d.action.runAfter, rank k < rank d.name) ∧
      ∀ c ∈ d.children, rank c.name < rank d.name) : actions.Acyclic := by
  have hlt : ∀ n k, Relation.TransGen actions.Needs n k → rank k < rank n := by
    have hstep : ∀ n k, actions.Needs n k → rank k < rank n := by
      rintro n k (⟨d, e, hd, -, rfl, rfl, hafter⟩ | ⟨d, e, hd, rfl, rfl, hinside⟩)
      · exact (h d hd).1 _ hafter
      · exact (h d hd).2 e hinside
    intro n k hpath
    induction hpath with
    | single hneeds => exact hstep _ _ hneeds
    | tail _ hneeds ih => exact Nat.lt_trans (hstep _ _ hneeds) ih
  exact fun n hpath => Nat.lt_irrefl _ (hlt n n hpath)

/-- A tree of different names without cycles and without bare switches. -/
structure Actions.Orderly (actions : Actions) : Prop where
  distinct : actions.Distinct
  acyclic : actions.Acyclic
  ending : actions.Ending

/-- An order in which the actions of the sample may be drawn. -/
def sampleRank : String → Nat
  | "Notify" => 3
  | "Check" => 2
  | "Send" => 1
  | _ => 0

theorem orderly_sample : sampleActions.Orderly := by
  refine ⟨distinct_sample, Actions.acyclic_of_rank sampleRank (by decide), ?_⟩
  rw [Actions.Ending]
  decide

namespace Diagram

variable {actions : Actions} {styles : StyleTable} {ts : List Task} {m : Memo} {t : Trip}

/-! ## What the memory knows -/

/-- The memory has the exit nodes of each finished action. -/
def Memo.Knows (m : Memo) (actions : Actions) : Prop :=
  ∀ d ∈ actions.declarations, m.progress? d.name = some .done →
    m.exits.lookup d.name = some (d.action.ends d.name)

theorem Memo.Knows.exitsOf {m : Memo} (h : m.Knows actions) (hends : actions.Ending)
    {d : Declaration} (hd : d ∈ actions.declarations) (hdone : m.progress? d.name = some .done) :
    m.exitsOf d.name = d.action.ends d.name :=
  exitsOf_of_lookup (h d hd hdone) (hends.ends_ne_nil d hd)

theorem Memo.Knows.start {m : Memo} (h : m.Knows actions) (k : String) :
    (m.start k).Knows actions := by
  intro d hd hdone
  rw [progress?_start] at hdone
  split at hdone
  · cases hdone
  · exact h d hd hdone

theorem Memo.Knows.finish {m : Memo} (h : m.Knows actions) (hdist : actions.Distinct)
    {d : Declaration} (hd : d ∈ actions.declarations) :
    (m.finish d.name (d.action.ends d.name)).Knows actions := by
  intro e he hdone
  rw [progress?_finish] at hdone
  rw [lookup_exits_finish]
  by_cases hname : e.name = d.name
  · rw [if_pos hname, hdist.eq_of_name he hd hname]
  · rw [if_neg hname] at hdone ⊢
    exact h e he hdone

/-! ## Tasks that lie ahead -/

/-- The action that a task is going to visit. -/
def Task.target? : Task → Option String
  | wire _ _ _ _ | leave _ _ => none
  | visit d => some d.name
  | depend _ dependency => some dependency

/-- Every action that is being drawn needs all declared actions that the tasks are to visit. -/
def Ahead (actions : Actions) (m : Memo) (ts : List Task) : Prop :=
  ∀ u, m.progress? u = some .underway → ∀ task ∈ ts, ∀ d ∈ actions.declarations,
    task.target? = some d.name → Relation.TransGen actions.Needs u d.name

/-- What is ahead is not being drawn. -/
theorem Ahead.not_underway (ha : actions.Acyclic) (h : Ahead actions m ts) {task : Task}
    (htask : task ∈ ts) {d : Declaration} (hd : d ∈ actions.declarations)
    (htarget : task.target? = some d.name) : m.progress? d.name ≠ some .underway :=
  fun hu => ha d.name (h d.name hu task htask d hd htarget)

theorem Ahead.tail {task : Task} (h : Ahead actions m (task :: ts)) : Ahead actions m ts :=
  fun u hu other hother => h u hu other (List.mem_cons_of_mem _ hother)

/-- Only the actions that are being drawn matter. -/
theorem Ahead.congr {m' : Memo} (h : Ahead actions m ts)
    (hm : ∀ u, m'.progress? u = some .underway ↔ m.progress? u = some .underway) :
    Ahead actions m' ts :=
  fun u hu => h u ((hm u).mp hu)

/-- Once an action is started, the tasks that it needs are ahead. -/
theorem Ahead.start {us : List Task} {d : Declaration} (hd : d ∈ actions.declarations)
    (h : Ahead actions m (.visit d :: ts))
    (hus : ∀ task ∈ us, ∀ e ∈ actions.declarations, task.target? = some e.name →
      actions.Needs d.name e.name) : Ahead actions (m.start d.name) us := by
  intro u hu task htask e he htarget
  have hstep := hus task htask e he htarget
  rw [Memo.progress?_start] at hu
  split at hu
  · rename_i heq
    exact heq ▸ .single hstep
  · exact (h u hu (.visit d) List.mem_cons_self d hd rfl).tail hstep

theorem needs_dependencyTasks {d : Declaration} (hd : d ∈ actions.declarations) :
    ∀ task ∈ d.dependencyTasks, ∀ e ∈ actions.declarations, task.target? = some e.name →
      actions.Needs d.name e.name := by
  intro task htask e he htarget
  obtain ⟨k, hk, rfl⟩ := List.mem_map.mp htask
  rw [Task.target?, Option.some.injEq] at htarget
  exact .dependency d e hd he rfl rfl (htarget ▸ hk)

theorem needs_tasks {d : Declaration} (hd : d ∈ actions.declarations) :
    ∀ task ∈ d.tasks, ∀ e ∈ actions.declarations, task.target? = some e.name →
      actions.Needs d.name e.name := by
  intro task htask e _ htarget
  cases task with
  | wire source target text note => cases htarget
  | leave id r => cases htarget
  | visit c =>
    exact .child d c hd rfl (Option.some.inj htarget) (visit_mem_tasks.mp htask)
  | depend name dependency => exact absurd htask depend_not_mem_tasks

section Fresh

variable {d : Declaration} {before inside : Trip}

/-- Before a new action is drawn, what it runs after is ahead. -/
theorem Ahead.dependencies (hd : d ∈ actions.declarations)
    (h : Ahead actions m (.visit d :: ts)) : Ahead actions (m.start d.name) d.dependencyTasks :=
  h.start hd (needs_dependencyTasks hd)

/-- Then the actions inside it are ahead. -/
theorem Ahead.groups (hd : d ∈ actions.declarations) (h : Ahead actions m (.visit d :: ts))
    (dependencies : Walks actions styles d.dependencyTasks (m.start d.name) before) :
    Ahead actions before.memo d.tasks :=
  (h.start hd (needs_tasks hd)).congr dependencies.underway_iff

/-- Afterwards what was ahead beside it still is. -/
theorem Ahead.rest (h : Ahead actions m (.visit d :: ts)) (new : m.progress? d.name = none)
    (dependencies : Walks actions styles d.dependencyTasks (m.start d.name) before)
    (groups : Walks actions styles d.tasks before.memo inside) (xs : List String) :
    Ahead actions (inside.memo.finish d.name xs) ts :=
  h.tail.congr (Memo.underway_finish_iff xs new
    fun n => (groups.underway_iff n).trans (dependencies.underway_iff n))

/-- An action that another runs after is ahead by itself. -/
theorem Ahead.forced {name : String} (h : Ahead actions m (.depend name d.name :: ts)) :
    Ahead actions m [.visit d] := by
  intro u hu task htask e he htarget
  rw [List.mem_singleton.mp htask] at htarget
  exact h u hu _ List.mem_cons_self e he htarget

theorem exitsFrom_eq (ho : actions.Orderly) (hd : d ∈ actions.declarations)
    (hinside : inside.exits = endsOf d.tasks) :
    d.exitsFrom inside.exits = d.action.ends d.name := by
  rw [hinside]
  exact exitsFrom_tasks fun c hc => ho.ending.ends_ne_nil c (children_mem_declarations hd hc)

end Fresh

/-! ## Trips -/

/-- A trip through what is ahead ends where the recursion says, and records nothing else. -/
theorem Walks.exits_eq (ho : actions.Orderly) (h : Walks actions styles ts m t)
    (hm : m.Knows actions) (hts : Ahead actions m ts) :
    t.exits = endsOf ts ∧ t.memo.Knows actions := by
  induction h with
  | nil m => exact ⟨rfl, hm⟩
  | wire _ ih | unknown _ _ ih | met _ _ _ ih => exact ih hm hts.tail
  | leave _ ih => exact (ih hm hts.tail).imp_left (congrArg (_ :: ·))
  | @again d ts m t declared seen rest ih =>
    -- a cycle would be needed to come to an action that is still being drawn
    have hdone := seen.done (hts.not_underway ho.acyclic List.mem_cons_self declared rfl)
    obtain ⟨hexits, hknows⟩ := ih hm hts.tail
    refine ⟨?_, hknows⟩
    rw [Trip.exits_prepend, hm.exitsOf ho.ending declared hdone, hexits]
    rfl
  | @fresh d ts m before inside t declared new dependencies groups rest ih₁ ih₂ ih₃ =>
    obtain ⟨-, hbefore⟩ := ih₁ (hm.start d.name) (hts.dependencies declared)
    obtain ⟨hinside, hknows⟩ := ih₂ hbefore (hts.groups declared dependencies)
    -- what is recorded for the action is what the recursion gives, so the memory stays right
    rw [exitsFrom_eq ho declared hinside] at rest ih₃ ⊢
    obtain ⟨hexits, hdone⟩ := ih₃ (hknows.finish ho.distinct declared)
      (hts.rest new dependencies groups _)
    refine ⟨?_, hdone⟩
    rw [Trip.exits_prepend, hexits]
    rfl
  | @force name dependency d ts m first t known new drawn rest ih₁ ih₂ =>
    obtain ⟨hd, rfl⟩ := Index.mem_declarations known
    obtain ⟨-, hknows⟩ := ih₁ hm hts.forced
    exact ih₂ hknows (hts.tail.congr drawn.underway_iff)

/-! ## Diagrams -/

theorem ahead_empty (ts : List Task) : Ahead actions .empty ts := by
  intro u hu
  cases hu

theorem knows_empty : Memo.empty.Knows actions := by
  intro d _ hdone
  cases hdone

/-- The exit nodes that a diagram records for a declared action are those of the recursion on the
action, each of them once. -/
theorem convert_exits {config : Config} {log : Log} {definition : Value} {c : Conversion}
    {actions : Actions} (h : (convert config log definition).2 = .ok c)
    (htree : Definition.tree? definition = some actions) (ho : actions.Orderly) :
    ∀ d ∈ actions.declarations, c.memo.exits.lookup d.name = some (d.action.ends d.name) ∧
      (d.action.ends d.name).Nodup := by
  obtain ⟨t, ht⟩ := convert_drawn_of_tree h htree
  intro d hd
  have hdone := ht.done ho.distinct d hd
  obtain ⟨-, hknows⟩ := ht.walks.exits_eq ho knows_empty (ahead_empty _)
  rw [ht.memo_eq] at hdone ⊢
  exact ⟨hknows d hd hdone, d.action.nodup_ends d.name⟩

/-- The switch of the sample ends at the action of its first case, at its own node for the empty
case, and at the action of its default branch. -/
theorem convert_exits_sample :
    (Conversion.ofEntries {} sampleEntries).memo.exits.lookup "Check"
      = some ["Send", "Check", "Ask"] := by
  have hcheck : sampleActions.declarations[1] ∈ sampleActions.declarations := List.getElem_mem _
  have hexits := (convert_exits convert_sample.1 tree?_sample.1 orderly_sample _ hcheck).1
  have hends : sampleActions.declarations[1].action.ends "Check" = ["Send", "Check", "Ask"] := by
    decide +kernel
  exact hexits.trans (congrArg some hends)

end Diagram

end Flowchart
