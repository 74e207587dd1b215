import Flowchart.Proofs.Reports

/-!
# What becomes of the entries of a definition

A reader of actions comes to entries of objects at every depth. Each of them is declared in the tree
or reported, with one exception: the body of a switch is read like any other, but a switch has no
body to keep it in.

* `Value.parts` are the parts of the definition of an action that are read, and `entriesRead` all
  entries that the reader comes to, in the order of the document;
* `Value.TextKeyed` is a value whose objects name their entries apart and by texts;
* `declarations_ofEntries`: the declarations of the tree are the entries that are kept, in this
  order. `filterMap_ofEntries`: an entry that describes no action is reported at its place;
* `convert_entries` says both of a conversion, and that the index has whatever is kept.
-/

namespace Flowchart

/-! ## The entries that are read -/

namespace Value

/-- The entries of what is found at a key; none if that is no object. -/
def objectEntries (v : Option Value) : List (Value × Value) := (v.bind entries?).getD []

/-- The entries for the actions in a part of a definition. -/
def actionEntries (part : Value) : List (Value × Value) := objectEntries (part.get? "actions")

/-- The parts of the definition of an action in which actions are looked for. Each says whether
there is a place for them: the body is looked at whatever the kind, but a switch has none. -/
def parts (raw : Value) : List (Bool × Value) :=
  match raw with
  | map fields =>
    let kind := Action.kindOf fields
    (kind != "Switch", raw)
      :: if kind = "If" then [(true, orNull (field? fields "else"))]
        else if kind = "Switch" then
          (objectEntries (field? fields "cases")).map (fun e => (true, e.2))
            ++ [(true, orNull (field? fields "default"))]
        else []
  | _ => []

theorem mem_of_field? {fields : List (Value × Value)} {name : String} {v : Value}
    (h : field? fields name = some v) : ∃ k, (k, v) ∈ fields := by
  rw [field?] at h
  induction fields with
  | nil => cases h
  | cons e rest ih =>
    rw [List.lookup_cons] at h
    split at h
    · cases h
      exact ⟨e.1, List.mem_cons_self⟩
    · obtain ⟨k, hk⟩ := ih h
      exact ⟨k, List.mem_cons_of_mem _ hk⟩

theorem objectEntries_of_map {v : Option Value} {entries : List (Value × Value)}
    (h : orNull v = map entries) : objectEntries v = entries := by
  cases v with
  | none => cases h
  | some v =>
    rw [orNull, Option.getD_some] at h
    rw [h]
    rfl

theorem objectEntries_eq_nil {v : Option Value} (h : ∀ entries, orNull v ≠ map entries) :
    objectEntries v = [] := by
  cases v with
  | none => rfl
  | some v =>
    cases v with
    | map entries => exact absurd rfl (h entries)
    | _ => rfl

theorem sizeOf_nil_le (v : Value) : sizeOf ([] : List (Value × Value)) ≤ sizeOf v := by
  rw [List.nil.sizeOf_spec]
  cases v with
  | null => exact Nat.le_refl 1
  | pair key value =>
    rw [pair.sizeOf_spec]
    omega
  | _ => exact Nat.le_add_right 1 _

theorem sizeOf_objectEntries_le (v : Option Value) :
    sizeOf (objectEntries v) ≤ sizeOf (orNull v) := by
  cases v with
  | none => exact sizeOf_nil_le _
  | some v =>
    cases v with
    | map entries =>
      have hself : orNull (some (map entries)) = map entries := rfl
      rw [hself, map.sizeOf_spec]
      exact Nat.le_add_left _ _
    | _ => exact sizeOf_nil_le _

theorem sizeOf_actionEntries_le (part : Value) : sizeOf part.actionEntries ≤ sizeOf part := by
  cases part with
  | map fields =>
    exact Nat.le_trans (sizeOf_objectEntries_le (field? fields "actions"))
      (Nat.le_of_lt (sizeOf_orNull_field?_lt fields "actions"))
  | _ => exact sizeOf_nil_le _

/-- A part is no larger than the definition, so what it holds is smaller than its entry. -/
theorem sizeOf_le_of_mem_parts {raw : Value} {p : Bool × Value} (h : p ∈ raw.parts) :
    sizeOf p.2 ≤ sizeOf raw := by
  rw [parts.eq_def] at h
  split at h
  · rename_i fields
    have hfield : ∀ name, sizeOf (orNull (field? fields name)) ≤ sizeOf (map fields) :=
      fun name => Nat.le_of_lt (sizeOf_orNull_field?_lt fields name)
    dsimp only at h
    rcases List.mem_cons.mp h with rfl | h
    · exact Nat.le_refl _
    · split at h
      · exact List.mem_singleton.mp h ▸ hfield "else"
      · split at h
        · rcases List.mem_append.mp h with h | h
          · obtain ⟨e, he, rfl⟩ := List.mem_map.mp h
            have hentries := Nat.le_trans (sizeOf_objectEntries_le (field? fields "cases"))
              (hfield "cases")
            have hentry := List.sizeOf_lt_of_mem he
            rw [← Prod.eta e, Prod.mk.sizeOf_spec] at hentry
            dsimp only at hentry ⊢
            omega
          · exact List.mem_singleton.mp h ▸ hfield "default"
        · exact absurd h List.not_mem_nil
  · exact absurd h List.not_mem_nil

end Value

/-- An entry that a reader of actions comes to: the names of the actions around it, its own name,
and what stands there. -/
structure Entry where
  path : List String
  name : String
  raw : Value
  /-- Whether all groups around it are kept. -/
  kept : Bool

/-- The entries that a reader comes to, each before those in its parts. -/
def entriesRead (path : List String) (kept : Bool) : List (Value × Value) → List Entry
  | [] => []
  | (key, raw) :: rest =>
    ⟨path, key.text, raw, kept⟩
      :: ((raw.parts.attach.flatMap fun p =>
          entriesRead (path ++ [key.text]) (kept && p.1.1) p.1.2.actionEntries)
        ++ entriesRead path kept rest)
termination_by entries => sizeOf entries
decreasing_by
  · have hpart := Value.sizeOf_le_of_mem_parts p.2
    have hentries := Value.sizeOf_actionEntries_le p.1.2
    simp only [List.cons.sizeOf_spec, Prod.mk.sizeOf_spec]
    omega
  · simp only [List.cons.sizeOf_spec, Prod.mk.sizeOf_spec]
    omega

theorem entriesRead_nil (path : List String) (kept : Bool) : entriesRead path kept [] = [] := by
  rw [entriesRead]

theorem entriesRead_cons (path : List String) (kept : Bool) (key raw : Value)
    (rest : List (Value × Value)) :
    entriesRead path kept ((key, raw) :: rest)
      = ⟨path, key.text, raw, kept⟩
        :: ((raw.parts.flatMap fun p =>
            entriesRead (path ++ [key.text]) (kept && p.1) p.2.actionEntries)
          ++ entriesRead path kept rest) := by
  rw [entriesRead]
  conv_rhs => rw [← List.attach_map_subtype_val raw.parts, List.flatMap_map]

namespace Entry

/-- The declaration that an entry makes: one that is kept and describes an action. -/
def declared? (e : Entry) : Option (List String × String × Action) :=
  if e.kept then (Action.ofValue e.name e.raw).1.map (e.path, e.name, ·) else none

/-- An entry that describes no action, with the type of what stands there. -/
def skipped? (e : Entry) : Option (String × String) :=
  if e.raw.entries?.isSome then none else some (e.name, e.raw.typeName)

end Entry

/-- What a declaration says of its entry. -/
def Declaration.entry (d : Declaration) : List String × String × Action :=
  (d.path, d.name, d.action)

/-- Induction over entries: what holds of the entries in the parts of the first one and of the
others holds of all of them. -/
theorem entries_induction {P : List (Value × Value) → Prop} (nil : P [])
    (cons : ∀ key raw rest, (∀ p ∈ raw.parts, P p.2.actionEntries) → P rest →
      P ((key, raw) :: rest)) (entries : List (Value × Value)) : P entries := by
  match entries with
  | [] => exact nil
  | (key, raw) :: rest =>
    refine cons key raw rest (fun p hp => ?_) (entries_induction nil cons rest)
    have hpart := Value.sizeOf_le_of_mem_parts hp
    have hentries := Value.sizeOf_actionEntries_le p.2
    exact entries_induction nil cons p.2.actionEntries
termination_by sizeOf entries
decreasing_by
  · simp only [List.cons.sizeOf_spec, Prod.mk.sizeOf_spec]
    omega
  · simp only [List.cons.sizeOf_spec, Prod.mk.sizeOf_spec]
    omega

/-- Nothing is declared from a group that is not kept. -/
theorem declared?_of_not_kept (path : List String) (entries : List (Value × Value)) :
    (entriesRead path false entries).filterMap Entry.declared? = [] := by
  induction entries using entries_induction generalizing path with
  | nil => rw [entriesRead_nil, List.filterMap_nil]
  | cons key raw rest ihparts ihrest =>
    have hparts : (raw.parts.flatMap fun p => entriesRead (path ++ [key.text]) (false && p.1)
        p.2.actionEntries).filterMap Entry.declared? = [] := by
      rw [List.filterMap_flatMap, List.flatMap_eq_nil_iff]
      exact fun p hp => ihparts p hp _
    rw [entriesRead_cons, List.filterMap_cons_none (by rfl), List.filterMap_append, hparts,
      ihrest path, List.append_nil]

/-! ## Objects keyed by texts -/

/-- A value whose objects have texts for keys, each of them once. -/
inductive Value.TextKeyed : Value → Prop where
  | map {entries : List (Value × Value)} (keys : ∀ e ∈ entries, ∃ s, e.1 = .str s)
      (nodup : (entries.map fun e => e.1.text).Nodup) (inside : ∀ e ∈ entries, TextKeyed e.2) :
      TextKeyed (.map entries)
  | other {v : Value} (h : v.entries? = none) : TextKeyed v

namespace Value.TextKeyed

variable {v key : Value} {fields entries rest : List (Value × Value)}

theorem field (h : (Value.map fields).TextKeyed) (name : String) :
    (orNull (field? fields name)).TextKeyed := by
  cases h with
  | map keys nodup inside =>
    cases hfield : field? fields name with
    | none => exact .other rfl
    | some w =>
      obtain ⟨k, hk⟩ := mem_of_field? hfield
      exact inside _ hk
  | other h => cases h

theorem map_nil : (Value.map []).TextKeyed :=
  .map (fun _ he => absurd he List.not_mem_nil) List.nodup_nil fun _ he =>
    absurd he List.not_mem_nil

/-- The entries of a value, if it has any, make an object of this kind. -/
theorem objectEntries {v : Option Value} (h : (orNull v).TextKeyed) :
    (Value.map (objectEntries v)).TextKeyed := by
  cases v with
  | none => exact map_nil
  | some v =>
    cases v with
    | map entries => exact h
    | _ => exact map_nil

theorem actionEntries (h : v.TextKeyed) : (Value.map v.actionEntries).TextKeyed := by
  cases v with
  | map fields => exact objectEntries (h.field "actions")
  | _ => exact objectEntries (v := none) (.other rfl)

theorem parts (h : v.TextKeyed) : ∀ p ∈ v.parts, p.2.TextKeyed := by
  intro p hp
  rw [Value.parts.eq_def] at hp
  split at hp
  · rename_i fields
    dsimp only at hp
    rcases List.mem_cons.mp hp with rfl | hp
    · exact h
    · split at hp
      · exact List.mem_singleton.mp hp ▸ h.field "else"
      · split at hp
        · rcases List.mem_append.mp hp with hp | hp
          · obtain ⟨e, he, rfl⟩ := List.mem_map.mp hp
            cases objectEntries (h.field "cases") with
            | map keys nodup inside => exact inside e he
            | other h => cases h
          · exact List.mem_singleton.mp hp ▸ h.field "default"
        · exact absurd hp List.not_mem_nil
  · exact absurd hp List.not_mem_nil

/-- Leaving out the first entry. -/
theorem tail (h : (Value.map ((key, v) :: rest)).TextKeyed) :
    (∃ s, key = .str s) ∧ v.TextKeyed ∧ (Value.map rest).TextKeyed := by
  cases h with
  | map keys nodup inside =>
    exact ⟨keys _ List.mem_cons_self, inside _ List.mem_cons_self,
      .map (fun e he => keys e (List.mem_cons_of_mem _ he)) (List.nodup_cons.mp nodup).2
        fun e he => inside e (List.mem_cons_of_mem _ he)⟩
  | other h => cases h

theorem nodup_texts (h : (Value.map entries).TextKeyed) :
    (entries.map fun e => e.1.text).Nodup := by
  cases h with
  | map keys nodup inside => exact nodup
  | other h => cases h

theorem map_cons {s : String} : (Value.map ((.str s, v) :: rest)).TextKeyed
    ↔ v.TextKeyed ∧ s ∉ rest.map (fun e => e.1.text) ∧ (Value.map rest).TextKeyed := by
  refine ⟨fun h => ?_, fun ⟨inside, fresh, others⟩ => ?_⟩
  · exact ⟨h.tail.2.1, (List.nodup_cons.mp h.nodup_texts).1, h.tail.2.2⟩
  · cases others with
    | map keys nodup insides =>
      exact .map (List.forall_mem_cons.mpr ⟨⟨s, rfl⟩, keys⟩)
        (List.nodup_cons.mpr ⟨fresh, nodup⟩) (List.forall_mem_cons.mpr ⟨inside, insides⟩)
    | other h => cases h

end Value.TextKeyed

/-! ## The tree that is read -/

namespace Action

variable {entries : List (Value × Value)} {raw : Value} {a : Action}

theorem ofEntries_cons (key raw : Value) (rest : List (Value × Value)) :
    ofEntries ((key, raw) :: rest)
      = (((ofValue key.text raw).1.map (key.text, ·)).toList ++ (ofEntries rest).1,
        nameEvents key ++ (ofValue key.text raw).2 ++ (ofEntries rest).2) := by
  rw [ofEntries]

theorem ofEntries_append (entries rest : List (Value × Value)) :
    ofEntries (entries ++ rest) = ((ofEntries entries).1 ++ (ofEntries rest).1,
      (ofEntries entries).2 ++ (ofEntries rest).2) := by
  induction entries with
  | nil => rw [List.nil_append, ofEntries]; rfl
  | cons e entries ih =>
    rw [List.cons_append, ofEntries_cons, ofEntries_cons, ih]
    simp only [List.append_assoc]

/-- The names of the actions among entries are texts of keys, in order. -/
theorem keys_ofEntries_sublist (entries : List (Value × Value)) :
    (Table.keys (ofEntries entries).1).Sublist (entries.map fun e => e.1.text) := by
  induction entries with
  | nil => simp [ofEntries, Table.keys]
  | cons e rest ih =>
    obtain ⟨key, raw⟩ := e
    rw [ofEntries_cons]
    cases (ofValue key.text raw).1 with
    | none => exact ih.cons _
    | some a => exact ih.cons_cons _

/-- Actions of different names are kept as they are read. -/
theorem table_ofEntries (h : (Value.map entries).TextKeyed) :
    (Actions.ofEntries entries).1 = (ofEntries entries).1 :=
  Table.ofEntries_eq_self (h.nodup_texts.sublist (keys_ofEntries_sublist entries))

/-- The group of a part is read from the entries that the part holds. -/
theorem branchOf_fst (name : String) (part : Part) (v : Value) :
    (branchOf name part v).1.getD [] = (Actions.ofEntries v.actionEntries).1 := by
  have hnil : ([] : Actions) = (Actions.ofEntries []).1 := by rw [Actions.ofEntries_nil]
  cases v with
  | map fields =>
    have hentries : (Value.map fields).actionEntries
        = Value.objectEntries (Value.field? fields "actions") := rfl
    rw [hentries, branchOf]
    cases Value.field? fields "actions" with
    | none => exact hnil
    | some v =>
      cases v with
      | map entries => rfl
      | _ => exact hnil
  | _ =>
    rw [branchOf.eq_def]
    exact hnil

theorem casesOf_fst (name : String) (entries : List (Value × Value)) :
    (casesOf name entries).1
      = entries.map fun e => (e.1.text, (Actions.ofEntries e.2.actionEntries).1) := by
  induction entries with
  | nil => rw [casesOf, List.map_nil]
  | cons e rest ih =>
    obtain ⟨key, branch⟩ := e
    rw [casesOf, List.map_cons, ← ih, ← branchOf_fst name (.case key.literal) branch]

/-- Cases of different names are kept as they are read. -/
theorem table_casesOf (name : String) (h : (Value.map entries).TextKeyed) :
    Table.ofEntries (casesOf name entries).1
      = entries.map fun e => (e.1.text, (Actions.ofEntries e.2.actionEntries).1) := by
  rw [casesOf_fst]
  refine Table.ofEntries_eq_self ?_
  simpa [Table.keys, Function.comp_def] using h.nodup_texts

/-- What is no object at the key of the cases counts as no cases, with at most a report. -/
theorem ofValue_switch (name : String) {fields : List (Value × Value)}
    (hkind : kindOf fields = "Switch") :
    let cases := casesOf name (Value.objectEntries (Value.field? fields "cases"))
    let default := branchOf name .default (Value.orNull (Value.field? fields "default"))
    ∃ defects, (∀ e ∈ defects, e = defect name .cases) ∧ ofValue name (.map fields)
      = (some (.switch (runAfterOf name fields).1 (Table.ofEntries cases.1) default.1),
        (runAfterOf name fields).2 ++ (branchOf name .action (.map fields)).2
          ++ (defects ++ cases.2) ++ default.2) := by
  have hif : ¬kindOf fields = "If" := by
    rw [hkind]
    decide
  have hnone : casesOf name [] = ([], []) := by rw [casesOf]
  rw [ofValue]
  simp only [if_neg hif, if_pos hkind]
  split
  · rename_i hnull
    have hentries : Value.objectEntries (Value.field? fields "cases") = [] :=
      Value.objectEntries_eq_nil fun entries h => by rw [hnull] at h; cases h
    exact ⟨[], fun e he => absurd he List.not_mem_nil, by rw [hentries, hnone]; rfl⟩
  · rename_i entries hmap
    have hentries := Value.objectEntries_of_map hmap
    exact ⟨[], fun e he => absurd he List.not_mem_nil, by rw [hentries]; rfl⟩
  · rename_i _ hother
    have hentries := Value.objectEntries_eq_nil hother
    exact ⟨[defect name .cases], fun e he => List.mem_singleton.mp he, by rw [hentries, hnone]; rfl⟩

/-- An object at this key is read as the cases. -/
theorem ofValue_switch_of_cases (name : String) {fields entries : List (Value × Value)}
    (hkind : kindOf fields = "Switch")
    (hcases : Value.field? fields "cases" = some (.map entries)) :
    let default := branchOf name .default (Value.orNull (Value.field? fields "default"))
    ofValue name (.map fields)
      = (some (.switch (runAfterOf name fields).1 (Table.ofEntries (casesOf name entries).1)
          default.1),
        (runAfterOf name fields).2 ++ (branchOf name .action (.map fields)).2
          ++ (casesOf name entries).2 ++ default.2) := by
  have hif : ¬kindOf fields = "If" := by
    rw [hkind]
    decide
  have hmap : Value.orNull (Value.field? fields "cases") = .map entries := by
    rw [hcases]
    rfl
  rw [ofValue]
  simp only [if_neg hif, if_pos hkind]
  split
  · rename_i hnull
    rw [hmap] at hnull
    cases hnull
  · rename_i entries' hentries
    rw [hmap] at hentries
    cases hentries
    rfl
  · rename_i _ hother
    exact absurd hmap (hother entries)

/-- The groups inside an action are read from the parts that there is a place for. -/
theorem flatMap_bodies {name : String} (h : (ofValue name raw).1 = some a)
    (hkeyed : raw.TextKeyed) {β : Type} {f : Actions → List β} (hf : f [] = []) :
    a.bodies.flatMap f = raw.parts.flatMap fun p =>
      if p.1 then f (Actions.ofEntries p.2.actionEntries).1 else [] := by
  cases raw with
  | map fields =>
    by_cases hswitch : kindOf fields = "Switch"
    · obtain ⟨defects, -, hread⟩ := ofValue_switch name hswitch
      rw [hread] at h
      cases h
      have hdefault : ∀ b : Option Actions, b.toList.flatMap f = f (b.getD []) := by
        intro b
        cases b with
        | none => exact hf.symm
        | some b => simp
      have hbodies : ∀ (runAfter : List String) (cases : List (String × Actions))
          (default : Option Actions), (switch runAfter cases default).bodies
            = cases.map Prod.snd ++ default.toList := by
        intro runAfter cases default
        cases default with
        | none => simp [bodies, branches, Function.comp_def]
        | some default => simp [bodies, branches, Function.comp_def]
      rw [table_casesOf name (hkeyed.field "cases").objectEntries, hbodies, List.flatMap_append,
        hdefault, branchOf_fst]
      simp [Value.parts, hswitch, List.flatMap_map]
    · rw [ofValue] at h
      simp only [if_neg hswitch] at h
      split at h
      · rename_i hif
        cases h
        simp [Value.parts, hif, branchOf_fst]
      · rename_i hif
        split at h
        · cases h
          simp [Value.parts, hif, hswitch, branchOf_fst]
        · cases h
          simp [Value.parts, hif, hswitch, branchOf_fst]
  | _ =>
    rw [ofValue.eq_def] at h
    cases h

/-- An object describes an action, and nothing else does. -/
theorem ofValue_isSome (name : String) (raw : Value) :
    (ofValue name raw).1.isSome = raw.entries?.isSome := by
  cases raw with
  | map fields =>
    rw [ofValue]
    dsimp only
    split
    · rfl
    · split
      · rfl
      · split
        · rfl
        · rfl
  | _ =>
    rw [ofValue.eq_def]
    rfl

/-! ### What is met on the way -/

variable {β : Type} {f : Event → Option β}

/-- A view of events that sees no defects but those of actions as a whole. -/
def SeesSkips (f : Event → Option β) : Prop :=
  ∀ name d, (∀ typeName, d ≠ .notAnObject typeName) → f (defect name d) = none

theorem nameEvents_str (s : String) : nameEvents (.str s) = [] := by
  simp [nameEvents, Value.isWritable]

/-- Nothing happens when texts become names. -/
theorem nameEvents_of_textKeyed (h : (Value.map entries).TextKeyed) :
    (entries.flatMap fun e => nameEvents e.1) = [] := by
  cases h with
  | map keys nodup inside =>
    refine List.flatMap_eq_nil_iff.mpr fun e he => ?_
    obtain ⟨s, hs⟩ := keys e he
    rw [hs]
    exact nameEvents_str s
  | other h => cases h

theorem filterMap_branchOf (hf : SeesSkips f) (name : String) (part : Part) (v : Value) :
    (branchOf name part v).2.filterMap f = (ofEntries v.actionEntries).2.filterMap f := by
  have hnil : (ofEntries []).2.filterMap f = [] := by
    rw [ofEntries]
    rfl
  cases v with
  | map fields =>
    have hentries : (Value.map fields).actionEntries
        = Value.objectEntries (Value.field? fields "actions") := rfl
    rw [branchOf, hentries]
    split
    · rename_i hnull
      have hnone : Value.objectEntries (Value.field? fields "actions") = [] :=
        Value.objectEntries_eq_nil fun entries h => by rw [hnull] at h; cases h
      rw [hnone, hnil]
      rfl
    · rename_i entries hmap
      rw [Value.objectEntries_of_map hmap]
    · rename_i _ hother
      rw [Value.objectEntries_eq_nil hother, hnil]
      exact List.filterMap_cons_none (hf name _ (by simp))
  | null =>
    rw [branchOf]
    exact hnil.symm
  | _ =>
    rw [branchOf.eq_def]
    exact (List.filterMap_cons_none (hf name _ (by simp))).trans hnil.symm

theorem filterMap_casesOf (hf : SeesSkips f) (name : String) (h : (Value.map entries).TextKeyed) :
    (casesOf name entries).2.filterMap f
      = entries.flatMap fun e => (ofEntries e.2.actionEntries).2.filterMap f := by
  induction entries with
  | nil =>
    rw [casesOf]
    rfl
  | cons e rest ih =>
    obtain ⟨key, branch⟩ := e
    obtain ⟨⟨s, rfl⟩, -, hrest⟩ := h.tail
    rw [casesOf, List.flatMap_cons, ← ih hrest]
    simp only [nameEvents_str, List.nil_append, List.filterMap_append, filterMap_branchOf hf]

theorem filterMap_runAfterOf (hf : SeesSkips f) (name : String) {fields : List (Value × Value)}
    (h : (Value.map fields).TextKeyed) :
    (runAfterOf name fields).2.filterMap f = [] := by
  rw [runAfterOf]
  split
  · rfl
  · rename_i entries hmap
    have hkeyed := h.field "runAfter"
    rw [hmap] at hkeyed
    exact congrArg (List.filterMap f) (nameEvents_of_textKeyed hkeyed)
  · exact List.filterMap_cons_none (hf name _ (by simp))

/-- What is met in reading an action: the report that there is none, or what is met in its parts. -/
theorem filterMap_ofValue (hf : SeesSkips f) (name : String) (h : raw.TextKeyed) :
    (ofValue name raw).2.filterMap f
      = (if raw.entries?.isSome then [] else (f (defect name (.notAnObject raw.typeName))).toList)
        ++ raw.parts.flatMap fun p => (ofEntries p.2.actionEntries).2.filterMap f := by
  cases raw with
  | map fields =>
    by_cases hswitch : kindOf fields = "Switch"
    · obtain ⟨defects, hdefects, hread⟩ := ofValue_switch name hswitch
      have hnone : defects.filterMap f = [] := List.filterMap_eq_nil_iff.mpr fun e he => by
        rw [hdefects e he]
        exact hf name _ (by simp)
      rw [hread]
      simp [List.filterMap_append, filterMap_runAfterOf hf name h, filterMap_branchOf hf, hnone,
        filterMap_casesOf hf name (h.field "cases").objectEntries, Value.parts, hswitch,
        List.flatMap_map, Value.entries?]
    · rw [ofValue]
      simp only [if_neg hswitch]
      split
      · rename_i hif
        simp [List.filterMap_append, filterMap_runAfterOf hf name h, filterMap_branchOf hf,
          Value.parts, hif, Value.entries?]
      · rename_i hif
        split
        · simp [List.filterMap_append, filterMap_runAfterOf hf name h, filterMap_branchOf hf,
            Value.parts, hif, hswitch, Value.entries?]
        · simp [List.filterMap_append, filterMap_runAfterOf hf name h, filterMap_branchOf hf,
            Value.parts, hif, hswitch, Value.entries?]
  | _ =>
    have hone : ∀ e, [e].filterMap f = (f e).toList := fun e => by
      cases hfe : f e with
      | none => exact List.filterMap_cons_none hfe
      | some b => exact List.filterMap_cons_some hfe
    rw [ofValue.eq_def]
    exact (hone _).trans (List.append_nil _).symm

end Action

/-! ## Accounts of the entries -/

/-- The declarations of the tree are the entries that are kept and describe actions, in order. -/
theorem declarations_ofEntries {entries : List (Value × Value)}
    (h : (Value.map entries).TextKeyed) (path : List String) (container : Actions) :
    (declarationsFrom path container (Actions.ofEntries entries).1).map Declaration.entry
      = (entriesRead path true entries).filterMap Entry.declared? := by
  induction entries using entries_induction generalizing path container with
  | nil => simp [entriesRead_nil, Actions.ofEntries_nil, declarationsFrom]
  | cons key raw rest ihparts ihrest =>
    obtain ⟨-, hraw, hrest⟩ := h.tail
    have hothers := ihrest hrest path container
    rw [Action.table_ofEntries hrest] at hothers
    rw [Action.table_ofEntries h, Action.ofEntries_cons, declarationsFrom_append, List.map_append,
      hothers, entriesRead_cons, ← List.cons_append, List.filterMap_append]
    congr 1
    cases haction : (Action.ofValue key.text raw).1 with
    | none =>
      have hparts : raw.parts = [] := by
        have hraw := Action.ofValue_isSome key.text raw
        rw [haction] at hraw
        cases raw with
        | map fields => cases hraw
        | _ => rfl
      rw [hparts, List.flatMap_nil, List.filterMap_cons_none (by simp [Entry.declared?, haction])]
      rfl
    | some a =>
      have hself : Entry.declared? ⟨path, key.text, raw, true⟩ = some (path, key.text, a) := by
        simp [Entry.declared?, haction]
      have hinside : (a.declarations (path ++ [key.text])).map Declaration.entry
          = (raw.parts.flatMap fun p => entriesRead (path ++ [key.text]) (true && p.1)
              p.2.actionEntries).filterMap Entry.declared? := by
        rw [Action.declarations_eq, List.map_flatMap, Action.flatMap_bodies haction hraw rfl,
          List.filterMap_flatMap]
        refine List.flatMap_congr fun p hp => ?_
        rw [Bool.true_and]
        cases p.1 with
        | true => exact ihparts p hp (hraw.parts p hp).actionEntries _ _
        | false => exact (declared?_of_not_kept _ _).symm
      rw [List.filterMap_cons_some hself, ← hinside]
      simp [declarationsFrom, Declaration.entry]

/-- Of the entries that describe no actions each is reported at its place. -/
theorem filterMap_ofEntries {β : Type} {f : Event → Option β} (hf : Action.SeesSkips f)
    {entries : List (Value × Value)} (h : (Value.map entries).TextKeyed) (path : List String)
    (kept : Bool) :
    (Action.ofEntries entries).2.filterMap f
      = (entriesRead path kept entries).filterMap fun e =>
          e.skipped?.bind fun (name, typeName) =>
            f (Action.defect name (.notAnObject typeName)) := by
  induction entries using entries_induction generalizing path kept with
  | nil =>
    rw [entriesRead_nil, Action.ofEntries]
    rfl
  | cons key raw rest ihparts ihrest =>
    obtain ⟨⟨s, rfl⟩, hraw, hrest⟩ := h.tail
    have hinside : (raw.parts.flatMap fun p => (Action.ofEntries p.2.actionEntries).2.filterMap f)
        = (raw.parts.flatMap fun p => entriesRead (path ++ [(Value.str s).text]) (kept && p.1)
            p.2.actionEntries).filterMap fun e =>
              e.skipped?.bind fun (name, typeName) =>
                f (Action.defect name (.notAnObject typeName)) := by
      rw [List.filterMap_flatMap]
      exact List.flatMap_congr fun p hp => ihparts p hp (hraw.parts p hp).actionEntries _ _
    rw [Action.ofEntries_cons, Action.nameEvents_str, List.nil_append, List.filterMap_append,
      Action.filterMap_ofValue hf _ hraw, ihrest hrest path kept, entriesRead_cons,
      ← List.cons_append, List.filterMap_append, hinside]
    congr 1
    cases hobject : raw.entries?.isSome with
    | true => simp [Entry.skipped?, hobject]
    | false =>
      cases hreport : f (Action.defect (Value.str s).text (.notAnObject raw.typeName)) with
      | none => simp [Entry.skipped?, hobject, hreport]
      | some b => simp [Entry.skipped?, hobject, hreport]

/-- Whatever is kept is in the index, in a group that leads from its name to an action. -/
theorem exists_lookup_of_kept {entries : List (Value × Value)}
    (h : (Value.map entries).TextKeyed) {e : Entry} (he : e ∈ entriesRead [] true entries)
    (hkept : e.kept) (hobject : e.raw.entries?.isSome) :
    ∃ a, (Action.ofValue e.name e.raw).1 = some a ∧
      ∃ i, (Index.ofActions (Actions.ofEntries entries).1).1.lookup e.name = some i ∧
        i.container.lookup e.name = some i.action := by
  obtain ⟨a, ha⟩ : ∃ a, (Action.ofValue e.name e.raw).1 = some a := by
    rw [← Option.isSome_iff_exists, Action.ofValue_isSome]
    exact hobject
  have hdeclared : e.declared? = some (e.path, e.name, a) := by
    simp [Entry.declared?, hkept, ha]
  have hmem : (e.path, e.name, a)
      ∈ ((Actions.ofEntries entries).1.declarations).map Declaration.entry := by
    rw [Actions.declarations, declarations_ofEntries h]
    exact List.mem_filterMap.mpr ⟨e, he, hdeclared⟩
  obtain ⟨d, hd, heq⟩ := List.mem_map.mp hmem
  have hname : d.name = e.name := congrArg (fun x => x.2.1) heq
  obtain ⟨i, hi⟩ := Option.isSome_iff_exists.mp (hname ▸ Index.lookup_isSome hd)
  obtain ⟨hdeclaration, hsame⟩ := Index.mem_declarations hi
  have hwellFormed := (readable_ofEntries entries).wellFormed
  exact ⟨a, ha, i, hi, hsame ▸ hwellFormed.lookup_container hdeclaration⟩

/-! ## Conversions -/

/-- The name of an action that is reported as no object, with its type. -/
def Diagnostic.skipped? : Diagnostic → Option (String × String)
  | malformedAction name (.notAnObject typeName) => some (name, typeName)
  | _ => none

/-- The report of an event, if it is one. -/
def Event.report? : Event → Option Diagnostic
  | report d => some d
  | halt _ => none

/-- The limit at which an event halts the work, if it does. -/
def Event.limit? : Event → Option Decimal.LimitError
  | report _ => none
  | halt e => some e

theorem Event.halt?_eq_head? (es : List Event) : halt? es = (es.filterMap limit?).head? := by
  induction es with
  | nil => rfl
  | cons e rest ih =>
    cases e with
    | report d => exact ih
    | halt e => rfl

theorem Event.reports_eq_filterMap {es : List Event} (h : halt? es = none) :
    reports es = es.filterMap report? := by
  induction es with
  | nil => rfl
  | cons e rest ih =>
    cases e with
    | report d =>
      have hrest := ih h
      rw [reports, hrest]
      rfl
    | halt e => cases h

/-- Names that are texts can be written, so reading does not halt. -/
theorem halt?_ofEntries {entries : List (Value × Value)} (h : (Value.map entries).TextKeyed) :
    Event.halt? (Action.ofEntries entries).2 = none := by
  have hsees : Action.SeesSkips Event.limit? := fun _ _ _ => rfl
  rw [Event.halt?_eq_head?, filterMap_ofEntries hsees h [] true, List.head?_eq_none_iff,
    List.filterMap_eq_nil_iff]
  intro e _
  cases e.skipped? with
  | none => rfl
  | some x => rfl

/-- What is reported in reading says of each entry that describes no action what stands there. -/
theorem skipped?_ofEntries {entries : List (Value × Value)} (h : (Value.map entries).TextKeyed) :
    (Event.reports (Action.ofEntries entries).2).filterMap Diagnostic.skipped?
      = (entriesRead [] true entries).filterMap Entry.skipped? := by
  have hsees : Action.SeesSkips fun e => e.report?.bind Diagnostic.skipped? := by
    intro name d hd
    cases d with
    | notAnObject typeName => exact absurd rfl (hd typeName)
    | _ => rfl
  rw [Event.reports_eq_filterMap (halt?_ofEntries h), List.filterMap_filterMap,
    filterMap_ofEntries hsees h [] true]
  refine List.filterMap_congr fun e _ => ?_
  cases e.skipped? with
  | none => rfl
  | some x => rfl

namespace Diagram

/-- Nothing that comes after reading is about entries. -/
theorem skipped?_after {config : Config} {actions : Actions} {c : Conversion} {t : Trip}
    (h : Drawn config actions c t) {r : Diagnostic}
    (hr : .report r ∈ (Index.ofActions actions).2.map Event.report
      ++ (Canvas.blank.drawAll (startStrokes actions ++ t.strokes)).2) : r.skipped? = none := by
  rcases List.mem_append.mp hr with hr | hr
  · obtain ⟨r', hr', heq⟩ := List.mem_map.mp hr
    cases heq
    obtain ⟨name, previous, rfl⟩ := Index.eq_duplicateName_of_mem [] _ r hr'
    rfl
  · rcases Canvas.report_mem_of_event hr with hstroke | hline
    · have hremark := h.isRemark_of_report_mem r hstroke
      cases r with
      | malformedAction name defect => exact hremark.elim
      | _ => rfl
    · cases r with
      | malformedAction name defect => exact hline.elim
      | _ => rfl

/-- The log of a definition goes with its entries if it ignores nothing, whether or not there is a
diagram. Of the entries that the reader comes to, those that describe actions are the declarations
of the tree, in the same order, but for those in the body of a switch; each of the others is
reported, in the same order. What is declared is in the index, ready to be drawn. -/
theorem convert_entries {config : Config} {log : Log} {definition : Value}
    {entries : List (Value × Value)} (hlog : log.ignored = [])
    (hentries : Definition.actions? definition = some entries)
    (hkeyed : (Value.map entries).TextKeyed) :
    ∃ (actions : Actions) (recorded : List Diagnostic),
      Definition.tree? definition = some actions ∧
      (convert config log definition).1.entries = log.entries ++ recorded ∧
      actions.declarations.map Declaration.entry
        = (entriesRead [] true entries).filterMap Entry.declared? ∧
      recorded.filterMap Diagnostic.skipped?
        = (entriesRead [] true entries).filterMap Entry.skipped? ∧
      ∀ e ∈ entriesRead [] true entries, e.kept → e.raw.entries?.isSome →
        ∃ a, (Action.ofValue e.name e.raw).1 = some a ∧
          ∃ i, (Index.ofActions actions).1.lookup e.name = some i ∧
            i.container.lookup e.name = some i.action := by
  obtain ⟨t, ht, hevents⟩ := ofEntries_drawn config entries
  have hconvert : (convert config log definition).1
      = log.recordAll (Conversion.ofEntries config entries).reports := by
    simp only [convert, hentries]
  refine ⟨(Actions.ofEntries entries).1, (Conversion.ofEntries config entries).reports, ?_, ?_,
    declarations_ofEntries hkeyed [] _, ?_, fun e he => exists_lookup_of_kept hkeyed he⟩
  · rw [Definition.tree?, hentries]
    rfl
  · rw [hconvert, Log.entries_recordAll hlog]
  · have hread : (Actions.ofEntries entries).2 = (Action.ofEntries entries).2 := rfl
    have hafter : (Event.reports ((Index.ofActions (Actions.ofEntries entries).1).2.map .report
        ++ (Canvas.blank.drawAll (startStrokes (Actions.ofEntries entries).1 ++ t.strokes)).2)
          ).filterMap Diagnostic.skipped? = [] :=
      List.filterMap_eq_nil_iff.mpr fun r hr => skipped?_after ht (Event.mem_of_mem_reports hr)
    rw [Conversion.reports, hevents, hread, Event.reports_append, halt?_ofEntries hkeyed,
      Option.isNone_none, if_pos rfl, List.filterMap_append, skipped?_ofEntries hkeyed, hafter,
      List.append_nil]

/-- The description of a plain action. -/
theorem ofValue_plain (name : String) :
    Action.ofValue name (.map [(.str "type", .str "Http")]) = (some (.simple "Http" [] []), []) :=
  Action.ofValue_description name (a := .simple "Http" [] []) (by decide) fun b hb => by
    rw [List.mem_singleton.mp hb]
    exact Actions.ofEntries_nil

/-- What stands in a box: an action, and something else. -/
def mixedBody : List (Value × Value) :=
  [(.str "Notify", .map [(.str "type", .str "Http")]), (.str "Later", .int 3)]

/-- A box with these two. -/
def mixedEntries : List (Value × Value) :=
  [(.str "Box", .map [(.str "type", .str "Scope"), (.str "actions", .map mixedBody)])]

/-- The action in the box is declared and found again, and what stands beside it is reported. -/
theorem convert_entries_mixed :
    ∃ (actions : Actions) (recorded : List Diagnostic),
      Definition.tree? (definitionOf mixedEntries) = some actions ∧
      (convert {} ⟨[], []⟩ (definitionOf mixedEntries)).1.entries = recorded ∧
      (["Box"], "Notify", .simple "Http" [] []) ∈ actions.declarations.map Declaration.entry ∧
      recorded.filterMap Diagnostic.skipped? = [("Later", "int")] ∧
      ∃ i, (Index.ofActions actions).1.lookup "Notify" = some i ∧
        i.container.lookup "Notify" = some i.action := by
  have hbody : (Value.map mixedBody).TextKeyed := by
    refine .map (by simp [mixedBody]) (by simp [mixedBody, Value.text]) fun e he => ?_
    rcases List.mem_pair.mp he with rfl | rfl
    · exact .map (by simp) (by simp) fun e he => List.mem_singleton.mp he ▸ .other rfl
    · exact .other rfl
  have hkeyed : (Value.map mixedEntries).TextKeyed := by
    refine .map (by simp [mixedEntries]) (by simp [mixedEntries]) fun e he => ?_
    rw [List.mem_singleton.mp he]
    refine .map (by simp) (by simp [Value.text]) fun e he => ?_
    rcases List.mem_pair.mp he with rfl | rfl
    · exact .other rfl
    · exact hbody
  obtain ⟨actions, recorded, htree, hlog, hdeclared, hskipped, hfound⟩ :=
    @convert_entries {} ⟨[], []⟩ (definitionOf mixedEntries) _ rfl rfl hkeyed
  have hread : entriesRead [] true mixedEntries
      = [⟨[], "Box", .map [(.str "type", .str "Scope"), (.str "actions", .map mixedBody)], true⟩,
        ⟨["Box"], "Notify", .map [(.str "type", .str "Http")], true⟩,
        ⟨["Box"], "Later", .int 3, true⟩] := by
    simp [mixedEntries, mixedBody, entriesRead_cons, entriesRead_nil, Value.parts, Action.kindOf,
      Value.actionEntries, Value.objectEntries, Value.get?, Value.entries?, Value.text]
  have hnotify : Action.ofValue "Notify" (.map [(.str "type", .str "Http")])
      = (some (.simple "Http" [] []), []) := ofValue_plain "Notify"
  obtain ⟨-, -, hindexed⟩ := hfound ⟨["Box"], "Notify", .map [(.str "type", .str "Http")], true⟩
    (by simp [hread]) rfl rfl
  refine ⟨actions, recorded, htree, hlog, ?_, ?_, hindexed⟩
  · rw [hdeclared, hread]
    refine List.mem_filterMap.mpr ⟨⟨["Box"], "Notify", _, true⟩,
      List.mem_cons_of_mem _ List.mem_cons_self, ?_⟩
    simp [Entry.declared?, hnotify]
  · rw [hskipped, hread]
    rfl

/-! ### The body of a switch -/

/-- A switch with an action in its body and one in a case. -/
def lostEntries : List (Value × Value) :=
  [(.str "Route", .map [(.str "type", .str "Switch"),
    (.str "cases", .map [(.str "Paid", .map [(.str "actions",
      .map [(.str "Send", .map [(.str "type", .str "Http")])])])]),
    (.str "actions", .map [(.str "Notify", .map [(.str "type", .str "Http")])])])]

/-- The reader comes to the action in the body and makes it without a report, but the index does not
have it and the log has no warning. -/
theorem convert_entries_lost :
    (∃ e ∈ entriesRead [] true lostEntries,
      e.name = "Notify" ∧ Action.ofValue e.name e.raw = (some (.simple "Http" [] []), [])) ∧
      (Index.ofActions (Actions.ofEntries lostEntries).1).1.lookup "Notify" = none ∧
      ∀ d ∈ (convert {} ⟨[], []⟩ (definitionOf lostEntries)).1.entries, d.severity = .info := by
  have hread : (entriesRead [] true lostEntries).map (fun e => (e.name, e.raw))
      = lostEntries.map (fun e => ("Route", e.2))
        ++ [("Notify", .map [(.str "type", .str "Http")]),
          ("Send", .map [(.str "type", .str "Http")])] := by
    simp [lostEntries, entriesRead_cons, entriesRead_nil, Value.parts, Action.kindOf,
      Value.actionEntries, Value.objectEntries, Value.get?, Value.entries?, Value.text,
      Value.orNull]
  have hnotify : Action.ofValue "Notify" (.map [(.str "type", .str "Http")])
      = (some (.simple "Http" [] []), []) := ofValue_plain "Notify"
  have hactions : Actions.ofEntries lostEntries
      = ([("Route", .switch [] [("Paid", [("Send", .simple "Http" [] [])])] none)], []) := by
    have hgroup : ∀ name, Actions.ofEntries [(.str name, .map [(.str "type", .str "Http")])]
        = ([(name, .simple "Http" [] [])], []) := by
      intro name
      have hread := ofValue_plain name
      rw [Actions.ofEntries, Action.ofEntries_cons]
      simp [Value.text, hread, Action.ofEntries, Action.nameEvents, Value.isWritable,
        Table.ofEntries, Table.put]
    have hcases : Action.casesOf "Route" [(.str "Paid", .map [(.str "actions",
        .map [(.str "Send", .map [(.str "type", .str "Http")])])])]
          = ([("Paid", [("Send", .simple "Http" [] [])])], []) := by
      rw [Action.casesOf, Action.branchOf_actions (by simp) (hgroup "Send")]
      simp [Action.casesOf, Value.text, Action.nameEvents, Value.isWritable]
    have hroute : (Value.str "Route").text = "Route" := rfl
    rw [Actions.ofEntries, lostEntries, Action.ofEntries_cons,
      Action.ofValue_switch_of_cases _ rfl rfl, hroute, hcases,
      Action.branchOf_actions (by simp) (hgroup "Notify")]
    simp [Action.ofEntries, Action.nameEvents, Action.runAfterOf, Action.branchOf, Value.orNull,
      Value.isWritable, Table.ofEntries, Table.put]
  have hreports : ∀ d ∈ (Conversion.ofEntries {} lostEntries).reports, d.severity = .info := by
    rw [Conversion.ofEntries, hactions]
    decide +kernel
  have hlog : (convert {} ⟨[], []⟩ (definitionOf lostEntries)).1
      = Log.recordAll ⟨[], []⟩ (Conversion.ofEntries {} lostEntries).reports := rfl
  refine ⟨?_, ?_, ?_⟩
  · have hmem : ("Notify", Value.map [(.str "type", .str "Http")])
        ∈ (entriesRead [] true lostEntries).map (fun e => (e.name, e.raw)) := by
      rw [hread]
      exact List.mem_append_right _ List.mem_cons_self
    obtain ⟨e, he, heq⟩ := List.mem_map.mp hmem
    obtain ⟨hname, hraw⟩ := Prod.mk.inj heq
    exact ⟨e, he, hname, by rw [hname, hraw, hnotify]⟩
  · rw [hactions]
    rfl
  · rw [hlog, Log.entries_recordAll rfl]
    exact hreports

end Diagram

end Flowchart
