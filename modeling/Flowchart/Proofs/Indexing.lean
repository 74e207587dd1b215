import Mathlib.Data.List.Infix
import Flowchart.Proofs.Reports

/-!
# The index of a tree

Names are global, and a tree may use one of them in several places, also inside itself. The index is
made by going through the tree once, and what it says of a name is settled by the declarations of
this name alone.

* `Actions.HasGroupAt` are the groups of a tree, each with the names of the actions on the way to
  it, and `mem_declarations_iff` says that the tree declares just their members;
* `Index.keys_addAll` and `Index.reports_addAll`: which names there are after some declarations, and
  what has been reported, from any index on;
* `Index.IsExact` puts together what an index has to say, and `Index.ofActions_isExact` that the
  index of a tree says it.
-/

namespace Flowchart

/-! ## Groups of a tree -/

/-- A group of a tree, at the end of a chain of actions: each of them is a member of a group, and
the next group is one of its branches. -/
inductive Actions.HasGroupAt (actions : Actions) : List String → Actions → Prop where
  | root : HasGroupAt actions [] actions
  | inside {path : List String} {g b : Actions} {name : String} {a : Action} {role : Role}
      (outer : HasGroupAt actions path g) (member : (name, a) ∈ g)
      (branch : (role, b) ∈ a.branches) : HasGroupAt actions (path ++ [name]) b

theorem Action.mem_bodies {a : Action} {b : Actions} :
    b ∈ a.bodies ↔ ∃ role, (role, b) ∈ a.branches := by
  rw [Action.bodies, List.mem_map]
  constructor
  · rintro ⟨⟨role, b⟩, hb, rfl⟩
    exact ⟨role, hb⟩
  · rintro ⟨role, hb⟩
    exact ⟨(role, b), hb, rfl⟩

theorem Actions.HasGroupAt.mem_declarations {actions g : Actions} {path : List String}
    (h : actions.HasGroupAt path g) {name : String} {a : Action} (ha : (name, a) ∈ g) :
    ⟨name, a, path, g⟩ ∈ actions.declarations := by
  induction h generalizing name a with
  | root => exact root_mem_declarations (Actions.mem_children.mpr ⟨name, a, ha, rfl⟩)
  | inside _ member branch ih =>
    refine children_mem_declarations (ih member) (Declaration.mem_children.mpr ?_)
    exact ⟨_, Action.mem_bodies.mpr ⟨_, branch⟩, Actions.mem_children.mpr ⟨name, a, ha, rfl⟩⟩

theorem hasGroupAt_of_mem {actions : Actions} :
    ∀ d ∈ actions.declarations, actions.HasGroupAt d.path d.container := by
  apply declarations_induction
  · intro d hd
    obtain ⟨n, a, -, rfl⟩ := Actions.mem_children.mp hd
    exact .root
  · intro d hmem hd c hc
    obtain ⟨b, hb, hc⟩ := Declaration.mem_children.mp hc
    obtain ⟨n, a, -, rfl⟩ := Actions.mem_children.mp hc
    obtain ⟨role, hbranch⟩ := Action.mem_bodies.mp hb
    exact .inside hd (mem_container d hmem) hbranch

/-- A tree declares the members of its groups and nothing else. -/
theorem mem_declarations_iff {actions : Actions} {d : Declaration} : d ∈ actions.declarations ↔
    actions.HasGroupAt d.path d.container ∧ (d.name, d.action) ∈ d.container :=
  ⟨fun hd => ⟨hasGroupAt_of_mem d hd, mem_container d hd⟩, fun ⟨hg, ha⟩ => hg.mem_declarations ha⟩

/-- The tree is gone through in pre-order: an action comes before the ones in its branches, and
those before its next sibling. -/
theorem declarationsFrom_preorder (path : List String) (container : Actions)
    (entries : List (String × Action)) :
    declarationsFrom path container entries = entries.flatMap fun e =>
      ⟨e.1, e.2, path, container⟩
        :: e.2.branches.flatMap fun b => declarationsFrom (path ++ [e.1]) b.2 b.2 := by
  rw [declarationsFrom_eq]
  refine List.flatMap_congr fun e _ => ?_
  rw [Action.declarations_eq, Action.bodies, List.flatMap_map]

/-! ## Names that are declared again -/

/-- The last one of the earlier declarations that has the name of this one. -/
def Declaration.previous? (d : Declaration) (earlier : List Declaration) : Option Declaration :=
  earlier.reverse.find? (·.name == d.name)

/-- The declarations of a tree whose name has been declared before, each with the previous
declaration of the name. -/
def Actions.redeclarations (actions : Actions) : List (Declaration × Declaration) :=
  (actions.declarations.zip actions.declarations.inits).filterMap fun (d, earlier) =>
    (d.previous? earlier).map (d, ·)

namespace Index

open Diagram (unique unique_append)

/-- New names come after those that are there. -/
theorem keys_addAll (index : Index) (ds : List Declaration) :
    (index.addAll ds).1.keys
      = index.keys ++ (unique (ds.map Declaration.name)).filter fun n => n ∉ index.keys := by
  induction ds generalizing index with
  | nil => simp [addAll, unique]
  | cons d rest ih =>
    have hrest : (index.addAll (d :: rest)).1 = ((index.add d).1.addAll rest).1 := rfl
    have hput : (index.add d).1.keys
        = if index.keys.contains d.name then index.keys else index.keys ++ [d.name] :=
      Table.keys_put index d.name d
    rw [hrest, ih, hput, List.map_cons, unique, List.filter_cons, List.filter_filter]
    -- a name that is there stays where it is, and its later declarations are not new either
    by_cases h : d.name ∈ index.keys
    · rw [if_pos (List.contains_iff_mem.mpr h), if_neg (by simpa using h)]
      congr 1
      refine List.filter_congr fun n _ => ?_
      by_cases hn : n = d.name
      · simp [hn, h]
      · simp [hn]
    · rw [if_neg (by simpa using h), if_pos (by simpa using h), List.append_assoc,
        List.singleton_append]
      congr 2
      refine List.filter_congr fun n _ => ?_
      by_cases hn : n = d.name
      · simp [hn]
      · simp [hn]

/-- A declaration is reported if its name is there, with the path of the one that it replaces. The
index has the last of the earlier declarations of the name. -/
theorem reports_addAll (index : Index) (before ds : List Declaration)
    (h : ∀ n, index.lookup n = before.reverse.find? (·.name == n)) :
    (index.addAll ds).2 = (ds.zip ds.inits).filterMap fun (d, earlier) =>
      (d.previous? (before ++ earlier)).map fun previous =>
        .duplicateName d.name previous.path := by
  induction ds generalizing index before with
  | nil => rfl
  | cons d rest ih =>
    -- the invariant: a name leads to the last of its declarations so far
    have hnext : ∀ n, (index.add d).1.lookup n = (before ++ [d]).reverse.find? (·.name == n) := by
      intro n
      have hlookup := lookup_addAll index [d] n
      rw [h, ← List.find?_append, ← List.reverse_append] at hlookup
      exact hlookup
    have hshift : ((d :: rest).zip (d :: rest).inits)
        = (d, []) :: (rest.zip rest.inits).map fun e => (e.1, d :: e.2) := by
      rw [List.inits_cons, List.zip_cons_cons, List.zip_map_right]
      rfl
    have hfirst : (index.add d).2 = ((d.previous? (before ++ [])).map fun previous =>
        Diagnostic.duplicateName d.name previous.path).toList := by
      rw [add, h, List.append_nil]
      rfl
    rw [addAll, hshift, List.filterMap_cons, List.filterMap_map]
    dsimp only
    rw [ih _ _ hnext, hfirst]
    simp only [List.append_assoc, List.singleton_append]
    cases d.previous? (before ++ []) with
    | none => rfl
    | some previous => rfl

/-- Of the declarations of a name all are reported but the first, and that one too if the name was
there before. -/
theorem count_reports_addAll (index : Index) (ds : List Declaration) (n : String) :
    ((index.addAll ds).2.map Diagnostic.action).count n
      = (ds.map Declaration.name).count n - if (index.lookup n).isSome then 0 else 1 := by
  induction ds generalizing index with
  | nil => simp [addAll]
  | cons d rest ih =>
    have hlookup : (index.add d).1.lookup n = if n == d.name then some d else index.lookup n :=
      Table.lookup_put index d.name n d
    have hreport : ((index.add d).2.map Diagnostic.action).count n
        = if d.name = n ∧ (index.lookup n).isSome then 1 else 0 := by
      rw [add]
      by_cases hn : d.name = n
      · subst hn
        cases index.lookup d.name with
        | none => simp
        | some previous => simp [Diagnostic.action]
      · cases index.lookup d.name with
        | none => simp [hn]
        | some previous => simp [Diagnostic.action, hn]
    rw [addAll, List.map_append, List.count_append, hreport, ih, hlookup, List.map_cons,
      List.count_cons]
    by_cases hn : d.name = n
    · cases hindex : index.lookup n with
      | none => simp [hn]
      | some previous => simp [hn]; omega
    · rw [beq_false_of_ne (Ne.symm hn), beq_false_of_ne hn]
      simp [hn]

/-! ## What an index says -/

/-- What an index has to say about a tree, and what has to be reported with it. -/
structure IsExact (actions : Actions) (index : Index) (reports : List Diagnostic) : Prop where
  /-- It has the declared names, in the order of their first declarations. -/
  keys_eq : index.keys = unique (actions.declarations.map Declaration.name)
  /-- A name leads to its last declaration. -/
  lookup_iff : ∀ n i, index.lookup n = some i ↔ i.name = n ∧
    ∃ before after, actions.declarations = before ++ i :: after ∧ ∀ d ∈ after, d.name ≠ n
  /-- The group of this declaration leads from the name to the action. -/
  container : ∀ n i, index.lookup n = some i → i.container.lookup n = some i.action
  /-- The group is at the end of the path. -/
  path : ∀ n i, index.lookup n = some i → actions.HasGroupAt i.path i.container
  /-- Each declaration but the first of its name is reported, with the path of the previous one. -/
  reports_eq : reports = actions.redeclarations.map fun e => .duplicateName e.1.name e.2.path
  texts_eq : reports.map (fun r => (r.severity, r.code, r.action, r.message))
    = actions.redeclarations.map fun e => (.warning, "W_DUPLICATE_ACTION_NAME", e.1.name,
        "Action name " ++ ("\"" ++ e.1.name ++ "\"")
          ++ " is declared more than once (previously at "
          ++ String.intercalate "/" (e.2.path ++ [e.1.name]) ++ "); the later declaration wins.")
  count_eq : ∀ n, (reports.map Diagnostic.action).count n
    = (actions.declarations.map Declaration.name).count n - 1

theorem lookup_ofActions_iff {actions : Actions} {n : String} {i : Declaration} :
    (ofActions actions).1.lookup n = some i ↔ i.name = n ∧
      ∃ before after, actions.declarations = before ++ i :: after ∧ ∀ d ∈ after, d.name ≠ n := by
  rw [lookup_ofActions, List.find?_eq_some_iff_append, beq_iff_eq]
  refine and_congr_right fun _ => ⟨?_, ?_⟩
  · rintro ⟨after, before, hsplit, hafter⟩
    refine ⟨before.reverse, after.reverse, ?_, fun d hd => ?_⟩
    · rw [← List.reverse_reverse actions.declarations, hsplit]
      simp
    · simpa using hafter d (List.mem_reverse.mp hd)
  · rintro ⟨before, after, hsplit, hafter⟩
    refine ⟨after.reverse, before.reverse, ?_, fun d hd => ?_⟩
    · rw [hsplit]
      simp
    · simpa using hafter d (List.mem_reverse.mp hd)

/-- What is reported of an index is a warning for each declaration of a name after its first one,
with the place of the previous one. -/
theorem reports_ofActions (actions : Actions) : (ofActions actions).2
    = actions.redeclarations.map fun e => .duplicateName e.1.name e.2.path := by
  rw [ofActions, reports_addAll [] [] actions.declarations fun _ => rfl,
    Actions.redeclarations, List.map_filterMap]
  refine List.filterMap_congr fun e _ => ?_
  obtain ⟨d, earlier⟩ := e
  dsimp only
  rw [List.nil_append, Option.map_map]
  rfl

/-- The index of a tree is exact, whatever names are declared again in it, and wherever. The tree
declares the members of its groups, in pre-order. -/
theorem ofActions_isExact {actions : Actions} (h : actions.WellFormed) :
    (∀ d, d ∈ actions.declarations ↔
      actions.HasGroupAt d.path d.container ∧ (d.name, d.action) ∈ d.container) ∧
    (∀ path container entries, declarationsFrom path container entries = entries.flatMap fun e =>
      ⟨e.1, e.2, path, container⟩
        :: e.2.branches.flatMap fun b => declarationsFrom (path ++ [e.1]) b.2 b.2) ∧
    IsExact actions (ofActions actions).1 (ofActions actions).2 ∧
    ∀ log : Log, log.ignored = [] →
      (log.recordAll (ofActions actions).2).entries = log.entries ++ (ofActions actions).2 := by
  refine ⟨fun d => mem_declarations_iff, declarationsFrom_preorder, ?_, fun log hlog =>
    Log.entries_recordAll hlog _⟩
  constructor
  · rw [ofActions, keys_addAll]
    simp [Table.keys]
  · exact fun n i => lookup_ofActions_iff
  · intro n i hi
    obtain ⟨hmem, rfl⟩ := mem_declarations hi
    exact h.lookup_container hmem
  · exact fun n i hi => hasGroupAt_of_mem i (mem_declarations hi).1
  · exact reports_ofActions actions
  · rw [reports_ofActions, List.map_map]
    rfl
  · intro n
    rw [ofActions, count_reports_addAll]
    rfl

/-- A tree in which one name stands inside itself and in a branch, and another in two boxes. -/
def shadowedActions : Actions :=
  [("Load", .scope .scope []
      [("Load", .simple "Http" [] []), ("Log", .simple "Compose" [] [])]),
    ("Check", .condition [] [("Log", .simple "Compose" ["Load"] [])]
      [("Load", .simple "Terminate" [] [])])]

/-- The last declarations win, and each of the earlier ones is told as the previous one. -/
theorem ofActions_isExact_shadowed :
    shadowedActions.WellFormed ∧
      (ofActions shadowedActions).1.keys = ["Load", "Log", "Check"] ∧
      (∃ i, (ofActions shadowedActions).1.lookup "Load" = some i ∧ i.path = ["Check"] ∧
        i.container.lookup "Load" = some i.action) ∧
      (ofActions shadowedActions).2.map Diagnostic.message
        = ["Action name \"Load\" is declared more than once (previously at Load); "
              ++ "the later declaration wins.",
            "Action name \"Log\" is declared more than once (previously at Load/Log); "
              ++ "the later declaration wins.",
            "Action name \"Load\" is declared more than once (previously at Load/Load); "
              ++ "the later declaration wins."] := by
  have hw : shadowedActions.WellFormed := by
    rw [Actions.WellFormed]
    decide
  obtain ⟨-, -, hexact, -⟩ := ofActions_isExact hw
  have hlookup : ∃ i, (ofActions shadowedActions).1.lookup "Load" = some i ∧ i.path = ["Check"] :=
    ⟨_, rfl, rfl⟩
  obtain ⟨i, hi, hpath⟩ := hlookup
  refine ⟨hw, ?_, ⟨i, hi, hpath, hexact.container _ i hi⟩, ?_⟩
  · rw [hexact.keys_eq]
    decide
  · rw [hexact.reports_eq]
    decide +kernel

end Index

end Flowchart
