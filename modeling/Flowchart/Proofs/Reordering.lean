import Flowchart.Proofs.Arrows

/-!
# Trees in another order

The arrows of a tree do not depend on the order in which its actions are declared, nor on the order
of the names that an action runs after. Only the first action of a group may matter, where the arrow
into the group leads to it alone.

* `Actions.Reordered` relates groups that hold the same actions in any order, and so on inside;
* `Reordered.declared`: reordered trees declare the same names, for reordered actions;
* `Reordered.arrow_iff`: reordered trees have the same arrows.
-/

namespace Flowchart

open Diagram

/-- An entry has a counterpart in any table with the same keys. -/
theorem Table.exists_mem_of_keys {α : Type} {t t' : Table String α}
    (h : ∀ k, k ∈ t.keys ↔ k ∈ t'.keys) {k : String} {a : α} (ha : (k, a) ∈ t) :
    ∃ a', (k, a') ∈ t' := by
  have hkey : k ∈ t.keys := List.mem_map.mpr ⟨(k, a), ha, rfl⟩
  obtain ⟨⟨k', a'⟩, ha', rfl⟩ := List.mem_map.mp ((h k).mp hkey)
  exact ⟨a', ha'⟩

/-! ## Reordered trees -/

mutual

/-- Actions of the same form that hold the same actions, in any order. Groups of which only the
first action is led to start with the same one. -/
inductive Action.Reordered : Action → Action → Prop where
  | simple {kind : String} {r r' : List String} {b b' : Actions} (after : ∀ k, k ∈ r ↔ k ∈ r')
      (body : Actions.Reordered b b') :
      Action.Reordered (.simple kind r b) (.simple kind r' b')
  | condition {r r' : List String} {yes yes' no no' : Actions} (after : ∀ k, k ∈ r ↔ k ∈ r')
      (firstYes : yes.keys.head? = yes'.keys.head?) (onYes : Actions.Reordered yes yes')
      (firstNo : no.keys.head? = no'.keys.head?) (onNo : Actions.Reordered no no') :
      Action.Reordered (.condition r yes no) (.condition r' yes' no')
  | switch {r r' : List String} {cases cases' : List (String × Actions)}
      {default default' : Option Actions} (after : ∀ k, k ∈ r ↔ k ∈ r')
      (labels : ∀ l, l ∈ Table.keys cases ↔ l ∈ Table.keys cases')
      (firsts : ∀ l b b', (l, b) ∈ cases → (l, b') ∈ cases' → b.keys.head? = b'.keys.head?)
      (bodies : ∀ l b b', (l, b) ∈ cases → (l, b') ∈ cases' → Actions.Reordered b b')
      (rest : Actions.Reordered (default.getD []) (default'.getD [])) :
      Action.Reordered (.switch r cases default) (.switch r' cases' default')
  | scope {kind : ScopeKind} {r r' : List String} {b b' : Actions} (after : ∀ k, k ∈ r ↔ k ∈ r')
      (first : b.keys.head? = b'.keys.head?) (body : Actions.Reordered b b') :
      Action.Reordered (.scope kind r b) (.scope kind r' b')

/-- Groups that hold the same actions, in any order. -/
inductive Actions.Reordered : Actions → Actions → Prop where
  | intro {g g' : Actions} (names : ∀ n, n ∈ g.keys ↔ n ∈ g'.keys)
      (members : ∀ n a a', (n, a) ∈ g → (n, a') ∈ g' → Action.Reordered a a') :
      Actions.Reordered g g'

end

mutual

theorem Action.Reordered.symm : ∀ {a a' : Action}, a.Reordered a' → a'.Reordered a
  | _, _, .simple after body => .simple (fun k => (after k).symm) body.symm
  | _, _, .condition after firstYes onYes firstNo onNo =>
    .condition (fun k => (after k).symm) firstYes.symm onYes.symm firstNo.symm onNo.symm
  | _, _, .switch after labels firsts bodies rest =>
    .switch (fun k => (after k).symm) (fun l => (labels l).symm)
      (fun l b b' hb hb' => (firsts l b' b hb' hb).symm)
      (fun l b b' hb hb' => (bodies l b' b hb' hb).symm) rest.symm
  | _, _, .scope after first body => .scope (fun k => (after k).symm) first.symm body.symm

theorem Actions.Reordered.symm : ∀ {g g' : Actions}, g.Reordered g' → g'.Reordered g
  | _, _, .intro names members =>
    .intro (fun n => (names n).symm) fun n a a' ha ha' => (members n a' a ha' ha).symm

end

/-! ## Where reordered actions end -/

/-- Reading gives each name once, so a group that was read is its own reordering. -/
theorem Actions.Readable.reordered_refl {g : Actions} (h : g.Readable) : g.Reordered g := by
  have hempty : Actions.Reordered [] [] :=
    .intro (fun _ => Iff.rfl) fun _ _ _ ha _ => absurd ha List.not_mem_nil
  have haction : ∀ a : Action, a.Sound → (∀ b ∈ a.bodies, b.Reordered b) → a.Reordered a := by
    intro a hs hb
    cases a with
    | simple kind runAfter body => exact .simple (fun _ => Iff.rfl) (hb body (.head _))
    | condition runAfter yes no =>
      exact .condition (fun _ => Iff.rfl) rfl (hb yes (.head _)) rfl (hb no (.tail _ (.head _)))
    | switch runAfter cases default =>
      have hcase : ∀ (l : String) (b : Actions), (l, b) ∈ cases → b.Reordered b := fun l b h =>
        hb b (Action.mem_bodies_switch.mpr (Or.inl ⟨l, h⟩))
      refine .switch (fun _ => Iff.rfl) (fun _ => Iff.rfl) (fun l b b' h h' => ?_)
        (fun l b b' h h' => ?_) ?_
      · rw [Table.eq_of_mem hs h h']
      · exact Table.eq_of_mem hs h h' ▸ hcase l b h
      · cases default with
        | none => exact hempty
        | some default => exact hb default (Action.mem_bodies_switch.mpr (Or.inr rfl))
    | scope kind runAfter body => exact .scope (fun _ => Iff.rfl) rfl (hb body (.head _))
  induction h with
  | intro names members inside ih =>
    refine .intro (fun _ => Iff.rfl) fun n a a' ha ha' => ?_
    exact Table.eq_of_mem names ha ha' ▸ haction a (members (n, a) ha) (ih (n, a) ha)

/-- The actions at the top of a tree that was read may be declared in any order. -/
theorem Actions.Readable.reordered_of_perm {g g' : Actions} (h : g.Readable) (hp : g.Perm g') :
    g.Reordered g' := by
  cases h.reordered_refl with
  | intro _ members =>
    exact .intro (fun n => (hp.map Prod.fst).mem_iff) fun n a a' ha ha' =>
      members n a a' ha (hp.mem_iff.mpr ha')

/-- A member of a group has its counterpart in the other order. -/
theorem Actions.Reordered.exists_mem {g g' : Actions} (h : g.Reordered g') {n : String} {a : Action}
    (ha : (n, a) ∈ g) : ∃ a', (n, a') ∈ g' ∧ a.Reordered a' := by
  cases h with
  | intro names members =>
    obtain ⟨a', ha'⟩ := Table.exists_mem_of_keys names ha
    exact ⟨a', ha', members n a a' ha ha'⟩

theorem Actions.Reordered.mem_keys {g g' : Actions} (h : g.Reordered g') (n : String) :
    n ∈ g.keys ↔ n ∈ g'.keys := by
  cases h with
  | intro names _ => exact names n

theorem partEnds_subset {g g' : Actions} (h : g.Reordered g') (hends : groupEnds g ⊆ groupEnds g')
    (name : String) : partEnds name g ⊆ partEnds name g' := by
  have hempty : g.isEmpty = g'.isEmpty := by
    have hkeys : ∀ g : Actions, g.isEmpty = true ↔ ∀ n, n ∉ g.keys := by
      intro g
      rw [List.isEmpty_iff, ← List.eq_nil_iff_forall_not_mem, Table.keys, List.map_eq_nil_iff]
    rw [Bool.eq_iff_iff, hkeys, hkeys]
    simp only [h.mem_keys]
  rw [partEnds, partEnds, hempty]
  split
  · exact List.Subset.refl _
  · exact hends

theorem unique_subset {xs ys : List String} (h : xs ⊆ ys) : unique xs ⊆ unique ys :=
  fun _ hx => mem_unique.mpr (h (mem_unique.mp hx))

theorem unique_append_subset {xs xs' ys ys' : List String} (hx : xs ⊆ xs') (hy : ys ⊆ ys') :
    unique (xs ++ ys) ⊆ unique (xs' ++ ys') :=
  unique_subset (List.append_subset.mpr ⟨List.subset_append_of_subset_left ys' hx,
    List.subset_append_of_subset_right xs' hy⟩)

mutual

/-- Reordered actions end at the same nodes, if not in the same order. -/
theorem Action.Reordered.ends_subset : ∀ {a a' : Action}, a.Reordered a' → ∀ name : String,
    a.ends name ⊆ a'.ends name
  | _, _, .simple _ body, name => by
    have hbody := partEnds_subset body body.groupEnds_subset name
    rw [Action.ends, Action.ends]
    exact unique_subset hbody
  | _, _, .condition _ _ onYes _ onNo, name => by
    have hyes := partEnds_subset onYes onYes.groupEnds_subset name
    have hno := partEnds_subset onNo onNo.groupEnds_subset name
    rw [Action.ends, Action.ends]
    exact unique_append_subset hyes hno
  | _, _, .switch _ labels _ bodies rest, name => by
    rw [Action.ends_switch, Action.ends_switch]
    refine unique_append_subset ?_ rest.groupEnds_subset
    intro x hx
    obtain ⟨⟨l, b⟩, hb, hx⟩ := List.mem_flatMap.mp hx
    obtain ⟨b', hb'⟩ := Table.exists_mem_of_keys labels hb
    have hends := (bodies l b b' hb hb').groupEnds_subset
    exact List.mem_flatMap.mpr
      ⟨(l, b'), hb', partEnds_subset (bodies l b b' hb hb') hends name hx⟩
  | _, _, .scope _ _ body, name => by
    have hbody := partEnds_subset body body.groupEnds_subset name
    rw [Action.ends, Action.ends]
    exact unique_subset hbody

theorem Actions.Reordered.groupEnds_subset : ∀ {g g' : Actions}, g.Reordered g' →
    groupEnds g ⊆ groupEnds g'
  | g, _, .intro names members => by
    intro x hx
    rw [groupEnds_eq, List.mem_flatMap] at hx ⊢
    obtain ⟨⟨n, a⟩, ha, hx⟩ := hx
    obtain ⟨a', ha'⟩ := Table.exists_mem_of_keys names ha
    exact ⟨(n, a'), ha', (members n a a' ha ha').ends_subset n hx⟩

end

/-! ## What reordered trees declare -/

theorem Action.Reordered.runAfter_iff {a a' : Action} (h : a.Reordered a') (k : String) :
    k ∈ a.runAfter ↔ k ∈ a'.runAfter := by
  cases h with
  | simple after _ => exact after k
  | condition after => exact after k
  | switch after => exact after k
  | scope after => exact after k

/-- What an action holds has its counterpart in the other order. -/
theorem Action.Reordered.exists_inside {a a' : Action} (h : a.Reordered a') {b : Actions}
    (hb : b ∈ a.bodies) {n : String} {c : Action} (hc : (n, c) ∈ b) :
    ∃ b' ∈ a'.bodies, ∃ c', (n, c') ∈ b' ∧ c.Reordered c' := by
  cases h with
  | simple _ body =>
    rw [bodies_simple, List.mem_singleton] at hb
    subst hb
    exact ⟨_, .head _, body.exists_mem hc⟩
  | condition _ _ onYes _ onNo =>
    rw [bodies_condition, List.mem_pair] at hb
    rcases hb with rfl | rfl
    · exact ⟨_, .head _, onYes.exists_mem hc⟩
    · exact ⟨_, .tail _ (.head _), onNo.exists_mem hc⟩
  | @switch _ _ _ _ _ default' _ labels _ inside rest =>
    rcases mem_bodies_switch.mp hb with ⟨l, hcase⟩ | rfl
    · obtain ⟨b', hcase'⟩ := Table.exists_mem_of_keys labels hcase
      exact ⟨b', mem_bodies_switch.mpr (Or.inl ⟨l, hcase'⟩),
        (inside l b b' hcase hcase').exists_mem hc⟩
    · obtain ⟨c', hc', hsame⟩ := rest.exists_mem hc
      cases default' with
      | none => exact absurd hc' List.not_mem_nil
      | some b' => exact ⟨b', mem_bodies_switch.mpr (Or.inr rfl), c', hc', hsame⟩
  | scope _ _ body =>
    rw [bodies_scope, List.mem_singleton] at hb
    subst hb
    exact ⟨_, .head _, body.exists_mem hc⟩

/-- Reordered trees declare the same names, for reordered actions. -/
theorem Actions.Reordered.declared {actions actions' : Actions} (h : actions.Reordered actions') :
    ∀ d ∈ actions.declarations, ∃ d' ∈ actions'.declarations, d'.name = d.name ∧
      d.action.Reordered d'.action := by
  apply declarations_induction
  · intro d hd
    obtain ⟨n, a, ha, rfl⟩ := Actions.mem_children.mp hd
    obtain ⟨a', ha', hsame⟩ := h.exists_mem ha
    exact ⟨⟨n, a', [], actions'⟩,
      root_mem_declarations (Actions.mem_children.mpr ⟨n, a', ha', rfl⟩), rfl, hsame⟩
  · rintro d _ ⟨d', hd', -, hsame⟩ c hc
    obtain ⟨b, hb, hc⟩ := Declaration.mem_children.mp hc
    obtain ⟨n, a, ha, rfl⟩ := Actions.mem_children.mp hc
    obtain ⟨b', hb', a', ha', hinside⟩ := hsame.exists_inside hb ha
    refine ⟨⟨n, a', d'.path ++ [d'.name], b'⟩, ?_, rfl, hinside⟩
    exact children_mem_declarations hd'
      (Declaration.mem_children.mpr ⟨b', hb', Actions.mem_children.mpr ⟨n, a', ha', rfl⟩⟩)

/-! ## The arrows of reordered trees -/

/-- Reordered actions lead to the same actions inside them. -/
theorem Action.Reordered.leads {a a' : Action} (h : a.Reordered a') {child : String}
    {text : Option String} (hleads : a.Leads child text) : a'.Leads child text := by
  cases h with
  | simple _ body =>
    cases hleads with
    | step h => exact .step ((body.mem_keys child).mp h)
  | condition _ firstYes _ firstNo _ =>
    cases hleads with
    | yes h => exact .yes (firstYes ▸ h)
    | no h => exact .no (firstNo ▸ h)
  | @switch _ _ _ _ _ default' _ labels firsts _ rest =>
    cases hleads with
    | @case _ _ _ l _ b hcase h =>
      obtain ⟨b', hcase'⟩ := Table.exists_mem_of_keys labels hcase
      exact .case hcase' (firsts l b b' hcase hcase' ▸ h)
    | default h =>
      have hchild := (rest.mem_keys child).mp h
      cases default' with
      | none => exact absurd hchild List.not_mem_nil
      | some b' => exact .default hchild
  | scope _ first _ =>
    cases hleads with
    | scope h => exact .scope (first ▸ h)

theorem Actions.Reordered.arrow {actions actions' : Actions} (h : actions.Reordered actions')
    {source target : String} {text : Option String} (harrow : actions.Arrow source target text) :
    actions'.Arrow source target text := by
  cases harrow with
  | start hmem first =>
    obtain ⟨a', ha', hsame⟩ := h.exists_mem hmem
    refine .start ha' (List.eq_nil_iff_forall_not_mem.mpr fun k hk => ?_)
    have hafter := (hsame.runAfter_iff k).mpr hk
    rw [first] at hafter
    exact List.not_mem_nil hafter
  | inside hd hleads =>
    obtain ⟨d', hd', hname, hsame⟩ := h.declared _ hd
    rw [← hname]
    exact .inside hd' (hsame.leads hleads)
  | after hd he hafter hexit =>
    obtain ⟨d', hd', hname, hsame⟩ := h.declared _ hd
    obtain ⟨e', he', hname', hsame'⟩ := h.declared _ he
    rw [← hname]
    refine .after hd' he' ?_ ?_
    · rw [hname']
      exact (hsame.runAfter_iff _).mp hafter
    · rw [hname']
      exact hsame'.ends_subset _ hexit

/-- Reordered trees have the same arrows. -/
theorem Actions.Reordered.arrow_iff {actions actions' : Actions} (h : actions.Reordered actions')
    {source target : String} {text : Option String} :
    actions.Arrow source target text ↔ actions'.Arrow source target text :=
  ⟨h.arrow, h.symm.arrow⟩

end Flowchart
