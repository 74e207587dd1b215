import Mathlib.Logic.Relation
import Flowchart.Diagram.Session
import Flowchart.Proofs.History

/-!
# Visits that are repeated

A visit of an action that has been finished draws nothing and leaves the memory as it is. It gives
the exit nodes of the visit that finished the action; only if there were none, it gives the node of
the action in their place.

* `Memo.Step` is a write to the memory and `Memo.Later` any number of them. `Memo.Later.ended`:
  no write changes what is kept of a finished action;
* `Plan.Call` is a visit of an action that has not been visited, at any depth of a walk, and
  `Plan.Proceeds` relates two memories with only writes between them, where each action that has
  been finished was finished by such a call. All parts of a walk proceed, up to
  `Plan.walkWithin_proceeds`;
* `Session.visit_again` says what a visit gives again in any session.
-/

namespace Flowchart.Diagram

/-! ## Writes to the memory -/

namespace Memo

/-- A write: a new action is marked, or one that is being drawn is finished. -/
inductive Step : Memo → Memo → Prop
  | start {m : Memo} {name : String} (new : m.progress? name = none) : Step m (m.start name)
  | finish {m : Memo} {name : String} (exits : List String)
      (underway : m.progress? name = some .underway) : Step m (m.finish name exits)

/-- The second memory comes from the first by writes. -/
def Later : Memo → Memo → Prop := Relation.ReflTransGen Step

theorem Step.ended {m m' : Memo} (h : Step m m') {name : String} {exits : List String}
    (hended : m.Ended name exits) : m'.Ended name exits := by
  obtain ⟨hdone, hexits⟩ := hended
  cases h with
  | @start k new =>
    have hne : name ≠ k := by
      rintro rfl
      rw [new] at hdone
      cases hdone
    exact ⟨by rw [progress?_start, if_neg hne, hdone], hexits⟩
  | @finish k exits' underway =>
    have hne : name ≠ k := by
      rintro rfl
      rw [underway] at hdone
      cases hdone
    exact ⟨by rw [progress?_finish, if_neg hne, hdone],
      by rw [lookup_exits_finish, if_neg hne, hexits]⟩

/-- What is kept of a finished action stays. -/
theorem Later.ended {m m' : Memo} (h : m.Later m') {name : String} {exits : List String}
    (hended : m.Ended name exits) : m'.Ended name exits := by
  induction h with
  | refl => exact hended
  | tail _ hstep ih => exact hstep.ended ih

end Memo

/-! ## Calls -/

/-- A visit of an action that its group declares and that has not been visited. -/
structure Plan.Call (p : Plan) where
  name : String
  group : Actions
  /-- How far the walk may go below it. -/
  depth : Nat
  memo : Memo
  declared : (List.lookup name group).isSome
  new : memo.progress? name = none

namespace Plan

/-- What a call gives. -/
def Call.leg {p : Plan} (c : p.Call) : Leg := p.walkWithin (c.depth + 1) c.name c.group c.memo

/-- A call finishes its action, and keeps the exit nodes that it gives. -/
theorem Call.ended {p : Plan} (c : p.Call) : c.leg.memo.Ended c.name c.leg.exits := by
  obtain ⟨a, ha⟩ := Option.isSome_iff_exists.mp c.declared
  rw [leg, walkWithin, visit, ha, c.new]
  exact ⟨by rw [Memo.progress?_finish, if_pos rfl], by rw [Memo.lookup_exits_finish, if_pos rfl]⟩

/-- The second memory comes from the first by a part of a walk. There are writes between them, what
is being drawn stays the same, and each action that is finished on the way is finished by a call. -/
structure Proceeds (p : Plan) (m m' : Memo) : Prop where
  later : m.Later m'
  underway_iff : ∀ n, m'.progress? n = some .underway ↔ m.progress? n = some .underway
  called : ∀ n, m'.progress? n = some .done → m.progress? n = some .done ∨
    ∃ c : p.Call, c.name = n ∧ m.Later c.memo ∧ c.leg.memo.Later m'

variable {p : Plan}

theorem Proceeds.refl (m : Memo) : p.Proceeds m m :=
  ⟨.refl, fun _ => Iff.rfl, fun _ hn => Or.inl hn⟩

theorem Proceeds.trans {m₁ m₂ m₃ : Memo} (h : p.Proceeds m₁ m₂) (h' : p.Proceeds m₂ m₃) :
    p.Proceeds m₁ m₃ := by
  refine ⟨h.later.trans h'.later, fun n => (h'.underway_iff n).trans (h.underway_iff n),
    fun n hn => ?_⟩
  rcases h'.called n hn with hn | ⟨c, hname, hbefore, hafter⟩
  · rcases h.called n hn with hn | ⟨c, hname, hbefore, hafter⟩
    · exact Or.inl hn
    · exact Or.inr ⟨c, hname, hbefore, hafter.trans h'.later⟩
  · exact Or.inr ⟨c, hname, h.later.trans hbefore, hafter⟩

/-! ## Parts of a walk -/

/-- Visits by which the memory proceeds. -/
def Progressive (p : Plan) (visit : Visit) : Prop :=
  ∀ name group m, p.Proceeds m (visit name group m).memo

variable {visit : Visit}

theorem visitEach_proceeds (hv : p.Progressive visit) (group : Actions) (w : Wiring)
    (isFirst : Bool) (names : List String) (m : Memo) :
    p.Proceeds m (visitEach visit group w isFirst names m).memo := by
  induction names generalizing isFirst m with
  | nil => exact .refl m
  | cons name rest ih => exact (hv name group m).trans (ih false _)

theorem groupLeg_proceeds (hv : p.Progressive visit) (id : String) (g : Group) (m : Memo) :
    p.Proceeds m (g.leg visit id m).memo := by
  rw [Group.leg]
  split
  · exact visitEach_proceeds hv _ _ _ _ m
  · exact .refl m
  · exact .refl m

theorem groupLegs_proceeds (hv : p.Progressive visit) (id : String) (gs : List Group) (m : Memo) :
    p.Proceeds m (groupLegs visit id gs m).memo := by
  induction gs generalizing m with
  | nil => exact .refl m
  | cons g rest ih => exact (groupLeg_proceeds hv id g m).trans (ih _)

theorem connectDependency_proceeds (hv : p.Progressive visit) (name dependency : String)
    (m : Memo) : p.Proceeds m (p.connectDependency visit name dependency m).memo := by
  rw [connectDependency]
  split
  · exact .refl m
  · split
    · exact hv _ _ m
    · exact .refl m
    · exact .refl m

theorem connectDependencies_proceeds (hv : p.Progressive visit) (name : String)
    (dependencies : List String) (m : Memo) :
    p.Proceeds m (p.connectDependencies visit name dependencies m).memo := by
  induction dependencies generalizing m with
  | nil => exact .refl m
  | cons dependency rest ih =>
    exact (connectDependency_proceeds hv name dependency m).trans (ih _)

/-- A call proceeds if everything between its two writes does. -/
theorem Call.proceeds (c : p.Call) {m : Memo} {exits : List String}
    (h : p.Proceeds (c.memo.start c.name) m) (hleg : c.leg.memo = m.finish c.name exits) :
    p.Proceeds c.memo c.leg.memo := by
  have hstart : c.memo.Later (c.memo.start c.name) := .single (.start c.new)
  have hunderway : m.progress? c.name = some .underway := by
    rw [h.underway_iff, Memo.progress?_start, if_pos rfl]
  have hfinish : m.Later c.leg.memo := hleg ▸ .single (.finish exits hunderway)
  refine ⟨hstart.trans (h.later.trans hfinish), fun n => ?_, fun n hn => ?_⟩
  · rw [hleg]
    exact Memo.underway_finish_iff exits c.new h.underway_iff n
  · by_cases hname : n = c.name
    · exact Or.inr ⟨c, hname.symm, .refl, .refl⟩
    · rw [hleg, Memo.progress?_finish, if_neg hname] at hn
      rcases h.called n hn with hn | ⟨c', hname', hbefore, hafter⟩
      · rw [Memo.progress?_start, if_neg hname] at hn
        exact Or.inl hn
      · exact Or.inr ⟨c', hname', hstart.trans hbefore, hafter.trans hfinish⟩

/-- One step of the walk is a call if the action is new, and else leaves the memory alone. -/
theorem visit_proceeds {depth : Nat} (hv : p.Progressive (p.walkWithin depth)) :
    p.Progressive (p.walkWithin (depth + 1)) := by
  intro name group m
  rw [walkWithin, Plan.visit]
  split
  · exact .refl m
  · rename_i a ha
    split
    · exact .refl m
    · rename_i hnew
      let call : p.Call := ⟨name, group, depth, m, by rw [ha]; rfl, hnew⟩
      have hinside := (connectDependencies_proceeds hv name a.runAfter (m.start name)).trans
        (groupLegs_proceeds hv (nodeId name) (a.groups name) _)
      have hleg : call.leg = p.visit (p.walkWithin depth) name group m := rfl
      rw [Plan.visit, ha, hnew] at hleg
      have hproceeds := call.proceeds hinside (congrArg Leg.memo hleg)
      rwa [hleg] at hproceeds

theorem walkWithin_proceeds (depth : Nat) : p.Progressive (p.walkWithin depth) := by
  induction depth with
  | zero => exact fun _ _ m => .refl m
  | succ depth ih => exact visit_proceeds ih

end Plan

/-! ## Sessions -/

/-- What may be done with a session: to change its canvas in any way, to visit an action of a group,
or to visit all of them. -/
inductive Operation where
  | draw (change : Canvas → Canvas)
  | visit (name : String) (group : Actions)
  | visitAll (group : Actions) (w : Wiring)

namespace Session

/-- The session after an operation. -/
def perform (s : Session) : Operation → Session
  | .draw change => { s with canvas := change s.canvas }
  | .visit name group => (s.visit name group).1
  | .visitAll group w => (s.visitAll group w).1

/-- The session after operations in order. -/
def performAll (s : Session) (ops : List Operation) : Session := ops.foldl perform s

/-- No operation changes the plan, and the memory proceeds. -/
theorem perform_spec (s : Session) (op : Operation) :
    (s.perform op).plan = s.plan ∧ s.plan.Proceeds s.memo (s.perform op).memo := by
  cases op with
  | draw change => exact ⟨rfl, .refl _⟩
  | visit name group => exact ⟨rfl, Plan.walkWithin_proceeds _ name group s.memo⟩
  | visitAll group w =>
    exact ⟨rfl, Plan.visitEach_proceeds (Plan.walkWithin_proceeds _) group w true _ s.memo⟩

theorem performAll_spec (s : Session) (ops : List Operation) :
    (s.performAll ops).plan = s.plan ∧ s.plan.Proceeds s.memo (s.performAll ops).memo := by
  induction ops generalizing s with
  | nil => exact ⟨rfl, .refl _⟩
  | cons op rest ih =>
    obtain ⟨hplan, hmemo⟩ := s.perform_spec op
    obtain ⟨hplan', hmemo'⟩ := ih (s.perform op)
    rw [hplan] at hplan' hmemo'
    exact ⟨hplan', hmemo.trans hmemo'⟩

end Session

/-! ## Visits of finished actions -/

/-- What a visit gives after the call: its exit nodes, or the node of the action if it has none. -/
def Plan.Call.answer {p : Plan} (c : p.Call) : List String :=
  if c.leg.exits = [] then [nodeId c.name] else c.leg.exits

theorem Plan.Call.exitsOf_eq {p : Plan} (c : p.Call) {m : Memo} (h : c.leg.memo.Later m) :
    m.exitsOf c.name = c.answer := by
  have hexits := (h.ended c.ended).2
  rw [answer]
  split
  · rename_i hnone
    rw [Memo.exitsOf, hexits, hnone]
  · rename_i hsome
    exact Memo.exitsOf_of_lookup hexits hsome

/-- At any later time, at any depth and from any group that declares it, a visit gives this answer,
draws nothing and keeps the memory. -/
theorem Plan.Call.walkWithin_again {p : Plan} (c : p.Call) {m : Memo} (h : c.leg.memo.Later m)
    {group : Actions} (hgroup : (List.lookup c.name group).isSome) (depth : Nat) :
    p.walkWithin (depth + 1) c.name group m = ⟨c.answer, [], m⟩ := by
  obtain ⟨a, ha⟩ := Option.isSome_iff_exists.mp hgroup
  have hdone := (h.ended c.ended).1
  rw [walkWithin, visit, ha, hdone, ← c.exitsOf_eq h]

/-- Only a condition or a switch may end nowhere. -/
theorem Plan.Call.endsAtNode_of_exits {p : Plan} (c : p.Call) (h : c.leg.exits = []) {a : Action}
    (ha : List.lookup c.name c.group = some a) : a.endsAtNode = false := by
  rw [leg, walkWithin, visit, ha, c.new] at h
  simp only [unique_eq_nil, Leg.andThen, List.append_eq_nil_iff] at h
  have hexits := h.2
  rw [Action.leg] at hexits
  cases hends : a.endsAtNode with
  | false => rfl
  | true =>
    -- without exits inside, the node of the action is one
    simp only [hends, Bool.true_and] at hexits
    split at hexits
    · exact absurd hexits (List.cons_ne_nil _ _)
    · rename_i hsome
      rw [hexits] at hsome
      exact absurd rfl hsome

/-- In any session, an action that is done was finished by a call, and from any group that declares
it a visit changes nothing, reports nothing and gives the exit nodes of the call. So does every
visit later on, at any depth of the walk. The exception is a call without exit nodes, which only a
condition or a switch can have: then the node of the action is given. -/
theorem Session.visit_again {plan : Plan} {ops : List Operation} {s : Session}
    (hs : (Session.new plan).performAll ops = s) {name : String} {group : Actions}
    (hdone : s.memo.progress? name = some .done) (hgroup : (List.lookup name group).isSome) :
    (∃ call : plan.Call, call.name = name ∧ Memo.empty.Later call.memo ∧
        call.leg.memo.Later s.memo) ∧
      ∀ call : plan.Call, call.name = name → call.leg.memo.Later s.memo →
        ∃ answer, s.visit name group = (s, answer, []) ∧
          (∀ later, s.memo.Later later → ∀ depth,
            plan.walkWithin (depth + 1) name group later = ⟨answer, [], later⟩) ∧
          (call.leg.exits ≠ [] → answer = call.leg.exits) ∧
          (call.leg.exits = [] → answer = [nodeId name] ∧
            ∀ a, List.lookup name call.group = some a → a.endsAtNode = false) := by
  obtain ⟨hplan, hmemo⟩ := (Session.new plan).performAll_spec ops
  rw [hs] at hplan hmemo
  have hplan : s.plan = plan := hplan
  constructor
  · rcases hmemo.called name hdone with hempty | hcall
    · cases hempty
    · exact hcall
  · rintro call rfl hbefore
    refine ⟨call.answer, ?_, fun later hlater depth =>
      call.walkWithin_again (hbefore.trans hlater) hgroup depth, fun hsome => if_neg hsome,
      fun hnone => ⟨if_pos hnone, fun a => call.endsAtNode_of_exits hnone⟩⟩
    rw [Session.visit, hplan, Session.take, Plan.walk, Plan.depth,
      call.walkWithin_again hbefore hgroup]
    rfl

/-- A box with an action inside gives that action again. -/
theorem Session.visit_again_box :
    let box : Actions := [("Box", .scope .scope [] [("Inside", .simple "Compose" [] [])])]
    let s := (Session.new (Plan.ofActions box [])).performAll [.visit "Box" box]
    s.visit "Box" box = (s, ["Inside"], []) := by
  intro box s
  let call : (Plan.ofActions box []).Call := ⟨"Box", box, 2, .empty, rfl, rfl⟩
  have hexits : call.leg.exits = ["Inside"] := by decide +kernel
  have hdone : s.memo.progress? "Box" = some .done := by decide +kernel
  have hgroup : (List.lookup "Box" box).isSome := rfl
  obtain ⟨answer, hvisit, -, hanswer, -⟩ :=
    (Session.visit_again (s := s) rfl hdone hgroup).2 call rfl .refl
  rw [hvisit, hanswer (by rw [hexits]; exact List.cons_ne_nil _ _), hexits]

/-- A switch that has nothing to choose from gives no exit nodes at first, and its own node when it
is visited again. -/
theorem Session.visit_again_bare_switch :
    let bare : Actions := [("Route", .switch [] [] none)]
    let first := (Session.new (Plan.ofActions bare [])).visit "Route" bare
    first.2.1 = [] ∧ (first.1.visit "Route" bare).2.1 = ["Route"] := by
  decide +kernel

end Flowchart.Diagram
