import Flowchart.Action.Reader
import Flowchart.Proofs.Memory
import Flowchart.Proofs.Tree

/-!
# The trees that are read

What reading promises about the tree of actions it gives, whatever the document holds: the actions
of a group and the cases of a switch have different names, and an action of a kind that is drawn as
a box is never read as a simple one.

* `Actions.Readable` says so for a group and all groups inside it, and `readable_ofEntries` that
  reading gives nothing else;
* `Actions.Readable.wellFormed` and `Actions.Readable.sound` carry this to every declaration.
-/

namespace Flowchart

/-! ## Tables -/

namespace Table

variable {α : Type}

theorem nodup_keys_put {t : Table String α} (h : t.keys.Nodup) (k : String) (a : α) :
    (t.put k a).keys.Nodup := by
  rw [keys_put]
  split
  · exact h
  · rename_i hk
    rw [List.contains_iff_mem] at hk
    refine List.nodup_append.mpr ⟨h, List.nodup_singleton k, ?_⟩
    rintro x hx y hy rfl
    exact hk (List.mem_singleton.mp hy ▸ hx)

/-- A table written entry by entry names each key once and holds nothing that was not written. -/
theorem ofEntries_spec (entries : List (String × α)) :
    (ofEntries entries).keys.Nodup ∧ ∀ e ∈ ofEntries entries, e ∈ entries := by
  have hfold : ∀ (es : List (String × α)) (t : Table String α), t.keys.Nodup →
      (∀ e ∈ t, e ∈ entries) → (∀ e ∈ es, e ∈ entries) →
      (es.foldl (fun t e => t.put e.1 e.2) t).keys.Nodup ∧
        ∀ e ∈ es.foldl (fun t e => t.put e.1 e.2) t, e ∈ entries := by
    intro es
    induction es with
    | nil => exact fun t hn ht _ => ⟨hn, ht⟩
    | cons e rest ih =>
      intro t hn ht hes
      -- the invariant of the fold: each key once, and only entries that have been written
      refine ih (t.put e.1 e.2) (nodup_keys_put hn e.1 e.2) ?_
        fun e' he' => hes e' (List.mem_cons_of_mem _ he')
      rintro ⟨j, b⟩ he'
      rcases mem_put he' with he' | ⟨rfl, rfl⟩
      · exact ht _ he'
      · exact hes e List.mem_cons_self
  exact hfold entries [] List.nodup_nil (fun e he => absurd he List.not_mem_nil) fun e he => he

theorem put_eq_append {t : Table String α} {k : String} (h : k ∉ t.keys) (a : α) :
    t.put k a = t ++ [(k, a)] := by
  induction t with
  | nil => rfl
  | cons e rest ih =>
    obtain ⟨k', a'⟩ := e
    rw [keys, List.map_cons, List.mem_cons, not_or] at h
    rw [put, beq_false_of_ne h.1, ih h.2]
    rfl

/-- A table that names each key once is written as it is. -/
theorem ofEntries_eq_self {t : Table String α} (h : t.keys.Nodup) : ofEntries t = t := by
  have hfold : ∀ es before : Table String α, (keys (before ++ es)).Nodup →
      es.foldl (fun t e => t.put e.1 e.2) before = before ++ es := by
    intro es
    induction es with
    | nil => exact fun before _ => (List.append_nil before).symm
    | cons e rest ih =>
      intro before hnodup
      have hnew : e.1 ∉ keys before := by
        rw [keys, List.map_append] at hnodup
        exact fun hmem => List.disjoint_of_nodup_append hnodup hmem List.mem_cons_self
      rw [List.foldl_cons, put_eq_append hnew, ih _ (by rwa [List.append_assoc]), List.append_assoc]
      rfl
  exact hfold t [] h

end Table

/-! ## Readable groups -/

/-- The kinds of actions that are drawn as boxes. -/
def boxKinds : List String := ["If", "Switch", "Foreach", "Until", "Scope"]

/-- A simple action has a kind that does not ask for a box, and a switch has no case twice. -/
def Action.Sound : Action → Prop
  | .simple kind _ _ => kind ∉ boxKinds
  | .switch _ cases _ => (Table.keys cases).Nodup
  | _ => True

instance : DecidablePred Action.Sound
  | .simple kind _ _ => inferInstanceAs (Decidable (kind ∉ boxKinds))
  | .switch _ cases _ => inferInstanceAs (Decidable (Table.keys cases).Nodup)
  | .condition _ _ _ | .scope _ _ _ => .isTrue trivial

/-- A group of sound actions with different names, and so on inside. -/
inductive Actions.Readable : Actions → Prop where
  | intro {g : Actions} (names : g.keys.Nodup) (members : ∀ e ∈ g, e.2.Sound)
      (inside : ∀ e ∈ g, ∀ b ∈ e.2.bodies, Readable b) : Readable g

theorem Actions.ofEntries_nil : Actions.ofEntries [] = ([], []) := by
  simp [Actions.ofEntries, Action.ofEntries, Table.ofEntries]

theorem Actions.readable_nil : Actions.Readable [] :=
  .intro List.nodup_nil (fun _ h => absurd h List.not_mem_nil) fun _ h => absurd h List.not_mem_nil

theorem Actions.Readable.ofEntries {entries : List (String × Action)}
    (h : ∀ e ∈ entries, e.2.Sound ∧ ∀ b ∈ e.2.bodies, Actions.Readable b) :
    Actions.Readable (Table.ofEntries entries) := by
  obtain ⟨hnames, hmem⟩ := Table.ofEntries_spec entries
  exact .intro hnames (fun e he => (h e (hmem e he)).1) fun e he => (h e (hmem e he)).2

theorem Action.boxKinds_of_scopeKind? {kind : String} (h : Action.scopeKind? kind = none)
    (hif : kind ≠ "If") (hswitch : kind ≠ "Switch") : kind ∉ boxKinds := by
  simp only [Action.scopeKind?, List.find?_eq_none, List.mem_cons, List.not_mem_nil, or_false,
    forall_eq_or_imp, forall_eq, ScopeKind.name, beq_iff_eq] at h
  simp only [boxKinds, List.mem_cons, List.not_mem_nil, or_false, not_or]
  exact ⟨hif, hswitch, Ne.symm h.1, Ne.symm h.2.1, Ne.symm h.2.2⟩

/-! ## What the readers give

Every group inside an action that is read is read itself, from a smaller part of the document, so
the induction over the tree is one over the size of what it is read from. -/

/-- A group that is read from entries below a size, or empty because there is nothing to read. -/
def ReadWithin (bound : Nat) (g : Actions) : Prop :=
  g = [] ∨ ∃ entries, sizeOf entries < bound ∧ g = (Actions.ofEntries entries).1

theorem ReadWithin.mono {bound bound' : Nat} {g : Actions} (h : ReadWithin bound g)
    (hle : bound ≤ bound') : ReadWithin bound' g := by
  rcases h with rfl | ⟨entries, hsize, rfl⟩
  · exact Or.inl rfl
  · exact Or.inr ⟨entries, Nat.lt_of_lt_of_le hsize hle, rfl⟩

namespace Action

theorem branchOf_readWithin {name : String} {part : Part} {container : Value} {g : Actions}
    (h : (branchOf name part container).1 = some g) : ReadWithin (sizeOf container) g := by
  rw [branchOf.eq_def] at h
  split at h
  · cases h
  · rename_i fields
    split at h
    · cases h
    · rename_i entries hentries
      have hsize := Value.sizeOf_orNull_field?_lt fields "actions"
      rw [hentries, Value.map.sizeOf_spec] at hsize
      exact Or.inr ⟨entries, by omega, (Option.some.inj h).symm⟩
    · cases h
  · cases h

theorem branchOf_getD_readWithin (name : String) (part : Part) (container : Value) :
    ReadWithin (sizeOf container) ((branchOf name part container).1.getD []) := by
  cases h : (branchOf name part container).1 with
  | none => exact Or.inl rfl
  | some g => exact branchOf_readWithin h

theorem casesOf_readWithin (name : String) (entries : List (Value × Value)) :
    ∀ e ∈ (casesOf name entries).1, ReadWithin (sizeOf entries) e.2 := by
  induction entries with
  | nil => simp [casesOf]
  | cons entry rest ih =>
    obtain ⟨key, branch⟩ := entry
    intro e he
    rw [casesOf] at he
    rcases List.mem_cons.mp he with rfl | he
    · refine (branchOf_getD_readWithin name _ branch).mono ?_
      simp only [List.cons.sizeOf_spec, Prod.mk.sizeOf_spec]
      omega
    · refine (ih e he).mono ?_
      simp only [List.cons.sizeOf_spec]
      omega

/-- The groups inside an action that is read are read from what is inside its description. -/
theorem ofValue_readWithin {name : String} {raw : Value} {a : Action}
    (h : (ofValue name raw).1 = some a) :
    a.Sound ∧ ∀ b ∈ a.bodies, ReadWithin (sizeOf raw) b := by
  rw [ofValue.eq_def] at h
  split at h
  · rename_i fields
    have hbody := branchOf_getD_readWithin name .action (.map fields)
    have hfield : ∀ (part : Part) (field : String), ReadWithin (sizeOf (Value.map fields))
        ((branchOf name part (Value.orNull (Value.field? fields field))).1.getD []) :=
      fun part field => (branchOf_getD_readWithin name part _).mono
        (Nat.le_of_lt (Value.sizeOf_orNull_field?_lt fields field))
    dsimp only at h
    -- the kinds in the order in which the reader asks for them
    split at h
    · cases h
      refine ⟨trivial, fun b hb => ?_⟩
      rw [bodies_condition, List.mem_pair] at hb
      rcases hb with rfl | rfl
      · exact hbody
      · exact hfield .otherwise "else"
    · rename_i hif
      split at h
      · rename_i hswitch
        cases h
        refine ⟨(Table.ofEntries_spec _).1, fun b hb => ?_⟩
        rcases mem_bodies_switch.mp hb with ⟨l, hcase⟩ | hb
        · have hmem := (Table.ofEntries_spec _).2 (l, b) hcase
          split at hmem
          · exact absurd hmem List.not_mem_nil
          · rename_i entries hentries
            have hsize := Value.sizeOf_orNull_field?_lt fields "cases"
            rw [hentries, Value.map.sizeOf_spec] at hsize
            exact (casesOf_readWithin name entries (l, b) hmem).mono (by omega)
          · exact absurd hmem List.not_mem_nil
        · have hdefault := hfield .default "default"
          rwa [hb] at hdefault
      · rename_i hswitch
        split at h
        · cases h
          refine ⟨trivial, fun b hb => ?_⟩
          rw [bodies_scope, List.mem_singleton] at hb
          exact hb ▸ hbody
        · rename_i hscope
          cases h
          refine ⟨boxKinds_of_scopeKind? hscope hif hswitch, fun b hb => ?_⟩
          rw [bodies_simple, List.mem_singleton] at hb
          exact hb ▸ hbody
  · cases h

theorem mem_ofEntries {entries : List (Value × Value)} {e : String × Action}
    (h : e ∈ (ofEntries entries).1) :
    ∃ name raw, sizeOf raw < sizeOf entries ∧ (ofValue name raw).1 = some e.2 := by
  induction entries with
  | nil => simp [ofEntries] at h
  | cons entry rest ih =>
    obtain ⟨key, raw⟩ := entry
    rw [ofEntries] at h
    rcases List.mem_append.mp h with h | h
    · obtain ⟨a, ha, rfl⟩ : ∃ a, (ofValue key.text raw).1 = some a ∧ (key.text, a) = e := by
        simpa using h
      refine ⟨key.text, raw, ?_, ha⟩
      simp only [List.cons.sizeOf_spec, Prod.mk.sizeOf_spec]
      omega
    · obtain ⟨name, raw', hsize, ha⟩ := ih h
      refine ⟨name, raw', ?_, ha⟩
      simp only [List.cons.sizeOf_spec]
      omega

end Action

/-- The actions that are read make a readable group. -/
theorem readable_ofEntries (entries : List (Value × Value)) :
    (Actions.ofEntries entries).1.Readable := by
  refine .ofEntries fun e he => ?_
  obtain ⟨name, raw, hsize, ha⟩ := Action.mem_ofEntries he
  obtain ⟨hkind, hbodies⟩ := Action.ofValue_readWithin ha
  refine ⟨hkind, fun b hb => ?_⟩
  rcases hbodies b hb with rfl | ⟨inner, hinner, rfl⟩
  · exact Actions.readable_nil
  · exact readable_ofEntries inner
termination_by sizeOf entries

/-! ## Readable trees -/

theorem Actions.Readable.of_mem_declarations {actions : Actions} (h : actions.Readable) :
    ∀ d ∈ actions.declarations, d.container.Readable := by
  apply declarations_induction
  · intro d hd
    obtain ⟨n, a, -, rfl⟩ := Actions.mem_children.mp hd
    exact h
  · intro d hmem hd c hc
    obtain ⟨b, hb, hc⟩ := Declaration.mem_children.mp hc
    obtain ⟨n, a, -, rfl⟩ := Actions.mem_children.mp hc
    cases hd with
    | intro _ _ inside => exact inside _ (mem_container d hmem) b hb

theorem Actions.Readable.wellFormed {actions : Actions} (h : actions.Readable) :
    actions.WellFormed := by
  intro d hd
  cases h.of_mem_declarations d hd with
  | intro names _ _ => exact names

theorem Actions.Readable.sound {actions : Actions} (h : actions.Readable) :
    ∀ d ∈ actions.declarations, d.action.Sound := by
  intro d hd
  cases h.of_mem_declarations d hd with
  | intro _ members _ => exact members _ (mem_container d hd)

/-- These two properties of the declarations make a tree readable. -/
theorem Actions.readable_iff {actions : Actions} :
    actions.Readable ↔ actions.WellFormed ∧ ∀ d ∈ actions.declarations, d.action.Sound := by
  refine ⟨fun h => ⟨h.wellFormed, h.sound⟩, fun ⟨hw, hs⟩ => ?_⟩
  have hgroup : ∀ (path : List String) (g : Actions),
      (∀ d ∈ g.children path, d ∈ actions.declarations) →
      (∀ d ∈ g.children path, ∀ b ∈ d.action.bodies, b.Readable) → g.Readable := by
    intro path g hdeclared hinside
    have hchild : ∀ e ∈ g, ⟨e.1, e.2, path, g⟩ ∈ g.children path := fun e he =>
      Actions.mem_children.mpr ⟨e.1, e.2, he, rfl⟩
    refine .intro ?_ (fun e he => hs _ (hdeclared _ (hchild e he))) fun e he =>
      hinside _ (hchild e he)
    cases g with
    | nil => exact List.nodup_nil
    | cons e rest => exact hw _ (hdeclared _ (hchild e List.mem_cons_self))
  have hinside : ∀ d ∈ actions.declarations, ∀ b ∈ d.action.bodies, b.Readable := by
    apply declarations_inside_out
    intro d hd ih b hb
    have hmem : ∀ c ∈ b.children (d.path ++ [d.name]), c ∈ d.children := fun c hc =>
      Declaration.mem_children.mpr ⟨b, hb, hc⟩
    exact hgroup _ b (fun c hc => children_mem_declarations hd (hmem c hc))
      fun c hc => ih c (hmem c hc)
  exact hgroup [] actions (fun _ => root_mem_declarations)
    fun d hd => hinside d (root_mem_declarations hd)

instance (actions : Actions) : Decidable actions.Readable :=
  haveI : Decidable actions.WellFormed :=
    inferInstanceAs (Decidable (∀ d ∈ actions.declarations, d.container.keys.Nodup))
  decidable_of_iff _ Actions.readable_iff.symm

end Flowchart
