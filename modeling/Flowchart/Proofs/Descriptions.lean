import Flowchart.Proofs.Reading

/-!
# Descriptions of trees

Each readable tree is read from some document.

* `Actions.entries` describes a tree by the entries of an object, each part of an action only if it
  holds something;
* `Actions.Readable.ofEntries_entries`: reading them gives the tree back, with nothing to report. So
  the trees that are read are the readable ones, by `exists_entries_iff`.
-/

namespace Flowchart

/-! ## Writing a tree -/

/-- An object with these entries, if there are any. -/
def Value.object? (entries : List (Value × Value)) : Option Value :=
  if entries.isEmpty then none else some (.map entries)

/-- A field with such an object. -/
def Value.fieldOf (name : String) (entries : List (Value × Value)) : List (Value × Value) :=
  ((object? entries).map (.str name, ·)).toList

/-- The fields that every action has, for its kind and the names that it runs after. -/
def Action.commonFields (a : Action) : List (Value × Value) :=
  (.str "type", .str a.kind) :: Value.fieldOf "runAfter" (a.runAfter.map fun k => (.str k, .null))

mutual

/-- The fields for the groups inside an action. A default branch that is there is written even if
it is empty. -/
def Action.partFields : Action → List (Value × Value)
  | .simple _ _ body | .scope _ _ body => Value.fieldOf "actions" (entriesOf body)
  | .condition _ yes no =>
    Value.fieldOf "actions" (entriesOf yes)
      ++ Value.fieldOf "else" (Value.fieldOf "actions" (entriesOf no))
  | .switch _ cases none => Value.fieldOf "cases" (caseEntriesOf cases)
  | .switch _ cases (some default) =>
    Value.fieldOf "cases" (caseEntriesOf cases)
      ++ [(.str "default", .map [(.str "actions", .map (entriesOf default))])]
termination_by structural a => a

/-- The entries that describe actions. -/
def entriesOf : List (String × Action) → List (Value × Value)
  | [] => []
  | (name, action) :: rest =>
    (.str name, .map (action.commonFields ++ action.partFields)) :: entriesOf rest
termination_by structural g => g

/-- The entries that describe the cases of a switch. -/
def caseEntriesOf : List (String × List (String × Action)) → List (Value × Value)
  | [] => []
  | (name, body) :: rest =>
    (.str name, .map (Value.fieldOf "actions" (entriesOf body))) :: caseEntriesOf rest
termination_by structural cases => cases

end

/-- The entries that describe a tree. -/
def Actions.entries (actions : Actions) : List (Value × Value) := entriesOf actions

/-! ## Reading it back -/

namespace Value

theorem str_beq_str (s t : String) : (Value.str s == Value.str t) = (s == t) := rfl

@[simp] theorem field?_nil (name : String) : field? [] name = none := rfl

@[simp] theorem field?_cons_str (k name : String) (v : Value) (rest : List (Value × Value)) :
    field? ((.str k, v) :: rest) name = if name = k then some v else field? rest name := by
  rw [field?, List.lookup_cons, str_beq_str]
  by_cases h : name = k
  · rw [if_pos h, beq_iff_eq.mpr h]
  · rw [if_neg h, beq_false_of_ne h, field?]

@[simp] theorem field?_append (fields rest : List (Value × Value)) (name : String) :
    field? (fields ++ rest) name = (field? fields name).or (field? rest name) :=
  List.lookup_append

@[simp] theorem field?_fieldOf (k name : String) (entries : List (Value × Value)) :
    field? (fieldOf k entries) name = if name = k then object? entries else none := by
  rw [fieldOf]
  cases object? entries with
  | none => simp
  | some v => simp

theorem field?_fieldOf_self (k : String) (entries : List (Value × Value)) :
    field? (fieldOf k entries) k = object? entries := by
  rw [field?_fieldOf, if_pos rfl]

end Value

namespace Action

theorem kindOf_commonFields (a : Action) (rest : List (Value × Value)) :
    kindOf (a.commonFields ++ rest) = a.kind := by
  simp [kindOf, commonFields]

theorem runAfterOf_commonFields (name : String) (a : Action) {rest : List (Value × Value)}
    (h : Value.field? rest "runAfter" = none) :
    runAfterOf name (a.commonFields ++ rest) = (a.runAfter, []) := by
  have hfield : Value.field? (a.commonFields ++ rest) "runAfter"
      = Value.object? (a.runAfter.map fun k => (.str k, .null)) := by
    simp [commonFields, h]
  rw [runAfterOf, hfield]
  cases a.runAfter with
  | nil => rfl
  | cons k ks =>
    show (((k :: ks).map _).map _, ((k :: ks).map _).flatMap _) = _
    rw [List.map_map, List.flatMap_map]
    simp [Function.comp_def, nameEvents, Value.text, Value.isWritable]

/-- The group of a part is read from the entries that the part holds. -/
theorem branchOf_actions {fields entries : List (Value × Value)} {g : Actions}
    (h : Value.field? fields "actions" = some (.map entries))
    (hread : Actions.ofEntries entries = (g, [])) (name : String) (part : Part) :
    branchOf name part (.map fields) = (some g, []) := by
  rw [Actions.ofEntries, Prod.mk.injEq] at hread
  rw [branchOf, h]
  show (some (Table.ofEntries (ofEntries entries).1), (ofEntries entries).2) = _
  rw [hread.1, hread.2]

/-- If there are none, the part may hold nothing. -/
theorem branchOf_map {fields entries : List (Value × Value)} {g : Actions}
    (h : Value.field? fields "actions" = Value.object? entries)
    (hread : Actions.ofEntries entries = (g, [])) (name : String) (part : Part) :
    ∃ b, branchOf name part (.map fields) = (b, []) ∧ b.getD [] = g := by
  cases entries with
  | nil =>
    rw [Actions.ofEntries_nil, Prod.mk.injEq] at hread
    rw [branchOf, h, ← hread.1]
    exact ⟨none, rfl, rfl⟩
  | cons e es => exact ⟨some g, branchOf_actions h hread name part, rfl⟩

/-- A part in a field of its own may be left out. -/
theorem branchOf_object? {entries : List (Value × Value)} {g : Actions}
    (hread : Actions.ofEntries entries = (g, [])) (name : String) (part : Part) :
    ∃ b, branchOf name part (Value.orNull (Value.object? (Value.fieldOf "actions" entries)))
      = (b, []) ∧ b.getD [] = g := by
  cases entries with
  | nil =>
    rw [Actions.ofEntries_nil, Prod.mk.injEq] at hread
    rw [← hread.1]
    exact ⟨none, by simp [Value.fieldOf, Value.object?, Value.orNull, branchOf], rfl⟩
  | cons e es => exact branchOf_map (Value.field?_fieldOf_self _ _) hread name part

/-- The cases of a switch are read one by one. -/
theorem casesOf_caseEntriesOf (name : String) {cases : List (String × Actions)}
    (h : ∀ e ∈ cases, Actions.ofEntries (entriesOf e.2) = (e.2, [])) :
    casesOf name (caseEntriesOf cases) = (cases, []) := by
  induction cases with
  | nil => simp [caseEntriesOf, casesOf]
  | cons e rest ih =>
    obtain ⟨label, body⟩ := e
    obtain ⟨b, hb, hbody⟩ := branchOf_map (Value.field?_fieldOf_self _ _)
      (h _ List.mem_cons_self) name (.case (Value.str label).literal)
    rw [caseEntriesOf, casesOf, ih fun e he => h e (List.mem_cons_of_mem _ he), hb]
    simp only [hbody]
    rfl

/-- A default branch is read if there is one. -/
theorem branchOf_default (name : String) (runAfter : List String)
    (cases : List (String × Actions)) {default : Option Actions}
    (h : ∀ g, default = some g → Actions.ofEntries (entriesOf g) = (g, [])) :
    branchOf name .default (Value.orNull
      (Value.field? (switch runAfter cases default).partFields "default")) = (default, []) := by
  cases default with
  | none => simp [partFields, Value.orNull, branchOf]
  | some g =>
    have hfield : Value.field? (switch runAfter cases (some g)).partFields "default"
        = some (.map [(.str "actions", .map (entriesOf g))]) := by
      simp [partFields]
    rw [hfield]
    exact branchOf_actions (by simp) (h g rfl) name .default

theorem scopeKind?_name (kind : ScopeKind) : scopeKind? kind.name = some kind := by
  cases kind <;> rfl

theorem scopeKind?_eq_none {kind : String} (h : kind ∉ boxKinds) : scopeKind? kind = none := by
  simp only [boxKinds, List.mem_cons, List.not_mem_nil, or_false, not_or] at h
  simp [scopeKind?, ScopeKind.name, Ne.symm h.2.2.1, Ne.symm h.2.2.2.1, Ne.symm h.2.2.2.2]

/-- Only its own fields describe the groups inside an action. -/
theorem field?_description (a : Action) {k : String} (htype : k ≠ "type")
    (hafter : k ≠ "runAfter") :
    Value.field? (a.commonFields ++ a.partFields) k = Value.field? a.partFields k := by
  simp [commonFields, htype, hafter]

theorem branchOf_description (name : String) {a : Action} {entries : List (Value × Value)}
    {g : Actions} (h : Value.field? a.partFields "actions" = Value.object? entries)
    (hread : Actions.ofEntries entries = (g, [])) :
    ∃ b, branchOf name .action (.map (a.commonFields ++ a.partFields)) = (b, []) ∧ b.getD [] = g :=
  branchOf_map ((a.field?_description (by decide) (by decide)).trans h) hread name .action

/-- The description of an action is read as the action, if its groups are. -/
theorem ofValue_description (name : String) {a : Action} (hsound : a.Sound)
    (h : ∀ b ∈ a.bodies, Actions.ofEntries (entriesOf b) = (b, [])) :
    ofValue name (.map (a.commonFields ++ a.partFields)) = (some a, []) := by
  have hafter : Value.field? a.partFields "runAfter" = none := by
    cases a with
    | switch runAfter cases default => cases default <;> simp [partFields]
    | _ => simp [partFields]
  rw [ofValue.eq_def]
  simp only [kindOf_commonFields, runAfterOf_commonFields name a hafter]
  rw [field?_description a (by decide) (by decide), field?_description a (by decide) (by decide),
    field?_description a (by decide) (by decide)]
  cases a with
  | simple kind runAfter body =>
    obtain ⟨b, hb, hbody⟩ := branchOf_description name (a := simple kind runAfter body)
      (Value.field?_fieldOf_self _ _) (h body (List.mem_singleton_self _))
    have hkind : kind ∉ boxKinds := hsound
    have hscope := scopeKind?_eq_none hkind
    simp only [boxKinds, List.mem_cons, not_or] at hkind
    simp only [hb, hbody, Action.kind, Action.runAfter, if_neg hkind.1, if_neg hkind.2.1, hscope,
      List.append_nil]
  | condition runAfter yes no =>
    have helse : Value.field? (condition runAfter yes no).partFields "else"
        = Value.object? (Value.fieldOf "actions" (entriesOf no)) := by
      simp [partFields]
    obtain ⟨b, hb, hyes⟩ := branchOf_description name (a := condition runAfter yes no)
      (by simp [partFields]) (h yes List.mem_cons_self)
    obtain ⟨b', hb', hno⟩ := branchOf_object? (h no (by simp)) name .otherwise
    rw [hb, helse, hb']
    simp only [Action.kind, Action.runAfter, hyes, hno, List.append_nil, if_pos]
  | switch runAfter cases default =>
    have hcases : Value.field? (switch runAfter cases default).partFields "cases"
        = Value.object? (caseEntriesOf cases) := by
      cases default <;> simp [partFields]
    have hnone : Value.field? (switch runAfter cases default).partFields "actions"
        = Value.object? [] := by
      cases default <;> simp [partFields, Value.object?]
    have hread := casesOf_caseEntriesOf name fun e he =>
      h e.2 (mem_bodies_switch.mpr (Or.inl ⟨e.1, he⟩))
    have hkeys : Table.ofEntries cases = cases := Table.ofEntries_eq_self hsound
    -- the body is read whatever the kind, and a switch has none
    obtain ⟨b, hb, -⟩ := branchOf_description name hnone Actions.ofEntries_nil
    rw [hb, hcases, branchOf_default name runAfter cases fun g hg =>
      h g (mem_bodies_switch.mpr (Or.inr hg))]
    simp only [Action.kind, Action.runAfter]
    rw [if_neg (by decide), if_pos trivial]
    cases cases with
    | nil => rfl
    | cons e rest =>
      show (some (Action.switch _ (Table.ofEntries (casesOf name (caseEntriesOf (e :: rest))).1) _),
        [] ++ (casesOf name (caseEntriesOf (e :: rest))).2 ++ []) = _
      rw [hread, hkeys]
      rfl
  | scope kind runAfter body =>
    obtain ⟨b, hb, hbody⟩ := branchOf_description name (a := scope kind runAfter body)
      (Value.field?_fieldOf_self _ _) (h body (List.mem_singleton_self _))
    have hif : kind.name ≠ "If" := by cases kind <;> decide
    have hswitch : kind.name ≠ "Switch" := by cases kind <;> decide
    simp only [hb, hbody, Action.kind, Action.runAfter, if_neg hif, if_neg hswitch, scopeKind?_name,
      List.append_nil]

theorem ofEntries_entriesOf {g : Actions} (hsound : ∀ e ∈ g, e.2.Sound)
    (h : ∀ e ∈ g, ∀ b ∈ e.2.bodies, Actions.ofEntries (entriesOf b) = (b, [])) :
    ofEntries (entriesOf g) = (g, []) := by
  induction g with
  | nil => simp [entriesOf, ofEntries]
  | cons e rest ih =>
    obtain ⟨name, a⟩ := e
    rw [entriesOf, ofEntries, ofValue_description _ (hsound _ List.mem_cons_self)
      (h _ List.mem_cons_self), ih (fun e he => hsound e (List.mem_cons_of_mem _ he))
      fun e he => h e (List.mem_cons_of_mem _ he)]
    rfl

end Action

/-- A readable tree is read from its entries, and nothing is reported. -/
theorem Actions.Readable.ofEntries_entries {actions : Actions} (h : actions.Readable) :
    Actions.ofEntries actions.entries = (actions, []) := by
  induction h with
  | @intro g names members _ ih =>
    rw [Actions.ofEntries, Actions.entries, Action.ofEntries_entriesOf members ih]
    show (Table.ofEntries g, []) = _
    rw [Table.ofEntries_eq_self names]

/-- So is each of its actions from its description. -/
theorem Actions.Readable.ofValue_description {actions : Actions} (h : actions.Readable)
    {name : String} {a : Action} (hmem : (name, a) ∈ actions) :
    Action.ofValue name (.map (a.commonFields ++ a.partFields)) = (some a, []) := by
  cases h with
  | intro names members bodies =>
    exact Action.ofValue_description name (members _ hmem) fun b hb =>
      (bodies _ hmem b hb).ofEntries_entries

/-- The trees that are read are the readable ones. -/
theorem exists_entries_iff {actions : Actions} :
    (∃ entries, (Actions.ofEntries entries).1 = actions) ↔ actions.Readable := by
  constructor
  · rintro ⟨entries, rfl⟩
    exact readable_ofEntries entries
  · intro h
    exact ⟨actions.entries, congrArg Prod.fst h.ofEntries_entries⟩

end Flowchart
