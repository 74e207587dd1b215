import Flowchart.Proofs.Entries

/-!
# What a document says about actions

The reader of actions goes on whatever it finds. What it makes of a document, and what it has to say
about it, is settled here without the reader.

* `Describes` are the actions that entries describe, entry by entry: an object is an action whose
  variant is decided by its kind, and `Value.keptParts` are the parts of it in which the groups of
  this variant are described;
* `positionsRead` are the places of a document at which something may be expected, in the order in
  which a reader comes to them, and `Position.isMalformed` those with something else;
* `ofEntries_interprets`: of entries that are named by texts the reader gives the actions that they
  describe, and reports the malformed places, each of them once.
-/

namespace Flowchart

/-! ## Actions that are described -/

namespace Value

/-- A part in which there is an object of actions. -/
def holdsActions (part : Value) : Bool := ((part.get? "actions").bind entries?).isSome

/-- The names that an action runs after: the keys of an object. -/
def namesAfter (fields : List (Value × Value)) : List String :=
  (objectEntries (field? fields "runAfter")).map fun e => e.1.text

/-- The parts of a definition in which the groups of its action are described, with their roles. A
case is there whatever stands in it, and a default branch only if it holds actions. -/
def keptParts (fields : List (Value × Value)) : List (Role × Value) :=
  let default := orNull (field? fields "default")
  if Action.kindOf fields = "If" then
    [(.actions, map fields), (.otherwise, orNull (field? fields "else"))]
  else if Action.kindOf fields = "Switch" then
    (objectEntries (field? fields "cases")).map (fun e => (.case e.1.text, e.2))
      ++ if default.holdsActions then [(.default, default)] else []
  else [(.actions, map fields)]

end Value

/-! ### The variant of an action -/

namespace Action

/-- The case that a group with a role stands in, if it stands in one. -/
def case? : Role × Actions → Option (String × Actions)
  | (.case name, g) => some (name, g)
  | _ => none

/-- The action of a kind with these groups. -/
def ofBranches (kind : String) (runAfter : List String) (branches : List (Role × Actions)) :
    Action :=
  let body := (branches.lookup .actions).getD []
  if kind = "If" then .condition runAfter body ((branches.lookup .otherwise).getD [])
  else if kind = "Switch" then
    .switch runAfter (branches.filterMap case?) (branches.lookup .default)
  else
    match scopeKind? kind with
    | some kind => .scope kind runAfter body
    | none => .simple kind runAfter body

/-- An action is put together again from its kind, the names that it runs after, and its groups. -/
theorem ofBranches_branches {a : Action} (h : a.Sound) :
    ofBranches a.kind a.runAfter a.branches = a := by
  cases a with
  | simple kind runAfter body =>
    have hkind : kind ∉ boxKinds := h
    have hscope := scopeKind?_eq_none hkind
    simp only [boxKinds, List.mem_cons, not_or] at hkind
    simp only [ofBranches, Action.kind, if_neg hkind.1, if_neg hkind.2.1, hscope]
    rfl
  | condition runAfter yes no => rfl
  | switch runAfter cases default =>
    have hcases : ∀ cases : List (String × Actions),
        (cases.map fun e => (Role.case e.1, e.2)).filterMap case? = cases := by
      intro cases
      rw [List.filterMap_map]
      exact List.filterMap_some
    have hdefault : ∀ cases : List (String × Actions),
        (cases.map fun e => (Role.case e.1, e.2)).lookup .default = none := by
      intro cases
      induction cases with
      | nil => rfl
      | cons e rest ih => exact ih
    have hkind : ofBranches (switch runAfter cases default).kind runAfter
        (switch runAfter cases default).branches
          = .switch runAfter ((switch runAfter cases default).branches.filterMap case?)
              ((switch runAfter cases default).branches.lookup .default) := rfl
    rw [Action.runAfter, hkind, branches, List.filterMap_append, List.lookup_append, hcases,
      hdefault]
    cases default with
    | none => simp
    | some g => simp [case?]
  | scope kind runAfter body =>
    cases kind with
    | _ => rfl

end Action

/-- The actions that the entries of an object describe. -/
inductive Describes : List (Value × Value) → Actions → Prop where
  | nil : Describes [] []
  /-- Something else than an object describes no action. -/
  | skip {key raw : Value} {rest : List (Value × Value)} {g : Actions}
      (other : raw.entries? = none) (others : Describes rest g) : Describes ((key, raw) :: rest) g
  /-- An object describes an action of its kind, with a group for each part that is kept. -/
  | take {key : Value} {fields rest : List (Value × Value)} {groups : List (Role × Actions)}
      {g : Actions} (roles : groups.map Prod.fst = (Value.keptParts fields).map Prod.fst)
      (inside : ∀ e ∈ (Value.keptParts fields).zip groups, Describes e.1.2.actionEntries e.2.2)
      (others : Describes rest g) :
      Describes ((key, .map fields) :: rest)
        ((key.text, .ofBranches (Action.kindOf fields) (Value.namesAfter fields) groups) :: g)

/-! ### What is described is settled -/

/-- Groups for the same parts have the same roles, so they may differ only in their actions. -/
theorem branches_eq_of_zip {parts : List (Role × Value)} {bs bs' : List (Role × Actions)}
    (h : bs.map Prod.fst = parts.map Prod.fst) (h' : bs'.map Prod.fst = parts.map Prod.fst)
    (hsame : ∀ p b b', (p, b) ∈ parts.zip bs → (p, b') ∈ parts.zip bs' → b.2 = b'.2) :
    bs = bs' := by
  induction parts generalizing bs bs' with
  | nil => rw [List.map_eq_nil_iff.mp h, List.map_eq_nil_iff.mp h']
  | cons p rest ih =>
    obtain ⟨⟨role, g⟩, bs, rfl, rfl, hrest⟩ := List.map_eq_cons_iff.mp h
    obtain ⟨⟨role', g'⟩, bs', rfl, hrole, hrest'⟩ := List.map_eq_cons_iff.mp h'
    have hfirst : g = g' := hsame p _ _ List.mem_cons_self List.mem_cons_self
    have hothers : bs = bs' := ih hrest hrest' fun q b b' hb hb' =>
      hsame q b b' (List.mem_cons_of_mem _ hb) (List.mem_cons_of_mem _ hb')
    rw [hfirst, hothers, ← hrole]

/-- Entries describe one group of actions. -/
theorem Describes.unique {entries : List (Value × Value)} {g g' : Actions}
    (h : Describes entries g) (h' : Describes entries g') : g = g' := by
  induction h generalizing g' with
  | nil =>
    cases h' with
    | nil => rfl
  | skip other _ ih =>
    cases h' with
    | skip _ others => exact ih others
    | take => cases other
  | take roles inside _ ihinside ih =>
    cases h' with
    | skip other => cases other
    | take roles' inside' others' =>
      rw [ih others', branches_eq_of_zip roles roles' fun p b b' hb hb' =>
        ihinside _ hb (inside' _ hb')]

/-! ### What is read is described -/

namespace Action

theorem runAfterOf_fst (name : String) (fields : List (Value × Value)) :
    (runAfterOf name fields).1 = Value.namesAfter fields := by
  rw [runAfterOf, Value.namesAfter]
  split
  · rename_i hnull
    rw [Value.objectEntries_eq_nil fun entries h => by rw [hnull] at h; cases h]
    rfl
  · rename_i entries hmap
    rw [Value.objectEntries_of_map hmap]
  · rename_i _ hother
    rw [Value.objectEntries_eq_nil hother]
    rfl

/-- A part without an object of actions gives no group. -/
theorem branchOf_isSome (name : String) (part : Part) (v : Value) :
    (branchOf name part v).1.isSome = v.holdsActions := by
  cases v with
  | map fields =>
    have hholds : (Value.map fields).holdsActions
        = ((Value.field? fields "actions").bind Value.entries?).isSome := rfl
    rw [hholds, branchOf]
    cases Value.field? fields "actions" with
    | none => rfl
    | some v =>
      cases v with
      | _ => rfl
  | _ =>
    rw [branchOf.eq_def]
    rfl

theorem branchOf_eq (name : String) (part : Part) (v : Value) : (branchOf name part v).1
    = if v.holdsActions then some (Actions.ofEntries v.actionEntries).1 else none := by
  have hread := branchOf_fst name part v
  rw [← branchOf_isSome name part v]
  cases hbranch : (branchOf name part v).1 with
  | none => rfl
  | some g =>
    rw [hbranch] at hread
    exact congrArg some hread

/-- The groups of an action are read from the parts of its definition that are kept. -/
theorem branches_ofValue {name : String} {fields : List (Value × Value)} {a : Action}
    (h : (ofValue name (.map fields)).1 = some a) (hkeyed : (Value.map fields).TextKeyed) :
    a.kind = kindOf fields ∧ a.runAfter = Value.namesAfter fields ∧
      a.branches = (Value.keptParts fields).map fun p =>
        (p.1, (Actions.ofEntries p.2.actionEntries).1) := by
  -- only a switch does not keep the body that is read
  by_cases hswitch : kindOf fields = "Switch"
  · obtain ⟨defects, -, hread⟩ := ofValue_switch name hswitch
    rw [hread] at h
    cases h
    have hif : kindOf fields ≠ "If" := by
      rw [hswitch]
      decide
    refine ⟨hswitch.symm, runAfterOf_fst name fields, ?_⟩
    rw [table_casesOf name (hkeyed.field "cases").objectEntries, branchOf_eq, branches,
      Value.keptParts, if_neg hif, if_pos hswitch]
    split
    · simp [Function.comp_def]
    · simp [Function.comp_def]
  · rw [ofValue] at h
    simp only [if_neg hswitch] at h
    split at h
    · rename_i hif
      cases h
      refine ⟨hif.symm, runAfterOf_fst name fields, ?_⟩
      rw [branchOf_fst, branchOf_fst, Value.keptParts, if_pos hif]
      rfl
    · rename_i hif
      have hparts : Value.keptParts fields = [(.actions, .map fields)] := by
        rw [Value.keptParts, if_neg hif, if_neg hswitch]
      rw [branchOf_fst] at h
      split at h
      · rename_i kind hscope
        cases h
        have hname : kind.name = kindOf fields := by simpa using List.find?_some hscope
        exact ⟨hname, runAfterOf_fst name fields, by rw [hparts]; rfl⟩
      · cases h
        exact ⟨rfl, runAfterOf_fst name fields, by rw [hparts]; rfl⟩

/-- What is kept is read. -/
theorem exists_mem_parts {fields : List (Value × Value)} {p : Role × Value}
    (h : p ∈ Value.keptParts fields) : ∃ kept, (kept, p.2) ∈ (Value.map fields).parts := by
  by_cases hif : kindOf fields = "If"
  · simp only [Value.keptParts, if_pos hif, List.mem_pair] at h
    rcases h with rfl | rfl
    · exact ⟨true, by simp [Value.parts, hif]⟩
    · exact ⟨true, by simp [Value.parts, hif]⟩
  · by_cases hswitch : kindOf fields = "Switch"
    · simp only [Value.keptParts, if_neg hif, if_pos hswitch, List.mem_append] at h
      refine ⟨true, ?_⟩
      rcases h with h | h
      · obtain ⟨e, he, rfl⟩ := List.mem_map.mp h
        simp only [Value.parts, hswitch, String.reduceEq, if_false, if_true]
        exact List.mem_cons_of_mem _ (List.mem_append_left _ (List.mem_map_of_mem he))
      · obtain rfl := List.mem_singleton.mp (List.mem_ite_nil_right.mp h).2
        simp [Value.parts, hswitch]
    · simp only [Value.keptParts, if_neg hif, if_neg hswitch, List.mem_singleton] at h
      exact ⟨true, by simp [h, Value.parts, hswitch]⟩

end Action

/-- What is read of entries that are named by texts is what they describe. -/
theorem describes_ofEntries {entries : List (Value × Value)}
    (h : (Value.map entries).TextKeyed) : Describes entries (Actions.ofEntries entries).1 := by
  induction entries using entries_induction with
  | nil =>
    rw [Actions.ofEntries_nil]
    exact .nil
  | cons key raw rest ihparts ihrest =>
    obtain ⟨-, hraw, hrest⟩ := h.tail
    have hothers := ihrest hrest
    rw [Action.table_ofEntries hrest] at hothers
    rw [Action.table_ofEntries h, Action.ofEntries_cons]
    have hobject := Action.ofValue_isSome key.text raw
    cases hread : (Action.ofValue key.text raw).1 with
    | none =>
      rw [hread] at hobject
      exact .skip (Option.isNone_iff_eq_none.mp (by simpa using hobject)) hothers
    | some a =>
      rw [hread] at hobject
      obtain ⟨fields, hfields⟩ := Option.isSome_iff_exists.mp hobject.symm
      obtain rfl : raw = .map fields := by
        cases raw with
        | map fields' => exact congrArg Value.map (Option.some.inj hfields)
        | _ => cases hfields
      obtain ⟨hkind, hafter, hbranches⟩ := Action.branches_ofValue hread hraw
      rw [← Action.ofBranches_branches (Action.ofValue_readWithin hread).1, hkind, hafter]
      refine .take ?_ ?_ hothers
      · rw [hbranches, List.map_map]
        rfl
      · have hzip : (Value.keptParts fields).zip a.branches = (Value.keptParts fields).map
            fun p => (p, p.1, (Actions.ofEntries p.2.actionEntries).1) := by
          rw [hbranches]
          simpa using List.zip_map' (f := id) (l := Value.keptParts fields)
        intro e he
        rw [hzip, List.mem_map] at he
        obtain ⟨p, hp, rfl⟩ := he
        obtain ⟨kept, hpart⟩ := Action.exists_mem_parts hp
        exact ihparts _ hpart (hraw.parts _ hpart).actionEntries

/-! ## Places where something may stand -/

/-- A place of a definition that a reader comes to. -/
structure Position where
  /-- The action that is reported if what stands here is of no use. -/
  action : String
  /-- What it is reported for. -/
  defect : Defect
  found : Value
  /-- Whether null may stand here, or nothing. -/
  optional : Bool

namespace Position

/-- Something stands here that is neither an object nor nothing. -/
def isMalformed (p : Position) : Bool :=
  match p.found with
  | .map _ => false
  | .null => !p.optional
  | _ => true

/-- The report that this is so. -/
def report (p : Position) : Diagnostic := .malformedAction p.action p.defect

/-- What happens when a reader comes here. -/
def events (p : Position) : List Event := if p.isMalformed then [.report p.report] else []

theorem events_of_other {action : String} {defect : Defect} {found : Value} {optional : Bool}
    (hnull : found = .null → False) (hmap : ∀ entries, found = .map entries → False) :
    events ⟨action, defect, found, optional⟩ = [.report (.malformedAction action defect)] := by
  cases found with
  | null => exact (hnull rfl).elim
  | map entries => exact (hmap entries rfl).elim
  | _ => rfl

theorem flatMap_events (ps : List Position) :
    ps.flatMap events = (ps.filter isMalformed).map fun p => .report p.report := by
  induction ps with
  | nil => rfl
  | cons p rest ih =>
    rw [List.flatMap_cons, ih, List.filter_cons, events]
    split
    · rfl
    · rfl

end Position

namespace Value

/-- The place of the actions in a part of the action `name`, and the entries that are read there. -/
def actionsStop (name : String) (part : Part) (fields : List (Value × Value)) :
    Position × List (Value × Value) :=
  (⟨name, .actionsOf part, orNull (field? fields "actions"), true⟩, (map fields).actionEntries)

/-- The place of a part, and that of the actions in it. -/
def partStops (name : String) (part : Part) (v : Value) :
    List (Position × List (Value × Value)) :=
  (⟨name, .part part, v, true⟩, []) :: (v.entries?.map (actionsStop name part)).toList

/-- The places in the definition of the action `name` in the order in which they are read, each with
the entries that are read there. The body comes first, whatever the kind. -/
def stops (name : String) (raw : Value) : List (Position × List (Value × Value)) :=
  match raw with
  | map fields =>
    (⟨name, .runAfter, orNull (field? fields "runAfter"), true⟩, [])
      :: actionsStop name .action fields
      :: if Action.kindOf fields = "If" then
          partStops name .otherwise (orNull (field? fields "else"))
        else if Action.kindOf fields = "Switch" then
          (⟨name, .cases, orNull (field? fields "cases"), true⟩, [])
            :: ((objectEntries (field? fields "cases")).flatMap fun e =>
                partStops name (.case e.1.literal) e.2)
            ++ partStops name .default (orNull (field? fields "default"))
        else []
  | _ => []

theorem mem_partStops {name : String} {part : Part} {v : Value}
    {s : Position × List (Value × Value)} (h : s ∈ partStops name part v) :
    s.2 = [] ∨ s.2 = v.actionEntries := by
  rcases List.mem_cons.mp h with rfl | h
  · exact Or.inl rfl
  · rw [Option.mem_toList, Option.map_eq_some_iff] at h
    obtain ⟨fields, hfields, rfl⟩ := h
    cases v with
    | map fields' =>
      cases hfields
      exact Or.inr rfl
    | _ => cases hfields

/-- Entries are read in parts only. -/
theorem mem_stops {name : String} {raw : Value} {s : Position × List (Value × Value)}
    (h : s ∈ raw.stops name) : s.2 = [] ∨ ∃ p ∈ raw.parts, s.2 = p.2.actionEntries := by
  have hpart : ∀ part v b, (b, v) ∈ raw.parts → s ∈ partStops name part v →
      s.2 = [] ∨ ∃ p ∈ raw.parts, s.2 = p.2.actionEntries :=
    fun part v b hv hs => (mem_partStops hs).imp_right fun hs => ⟨(b, v), hv, hs⟩
  cases raw with
  | map fields =>
    rw [stops] at h
    rcases List.mem_cons.mp h with rfl | h
    · exact Or.inl rfl
    rcases List.mem_cons.mp h with rfl | h
    · exact Or.inr ⟨(Action.kindOf fields != "Switch", map fields), by simp [parts], rfl⟩
    split at h
    · rename_i hif
      exact hpart _ _ true (by simp [parts, hif]) h
    split at h
    · rename_i hswitch
      rcases List.mem_append.mp h with h | h
      · rcases List.mem_cons.mp h with rfl | h
        · exact Or.inl rfl
        · obtain ⟨e, he, hs⟩ := List.mem_flatMap.mp h
          refine hpart _ e.2 true ?_ hs
          simp only [parts, hswitch, String.reduceEq, if_false, if_true]
          exact List.mem_cons_of_mem _
            (List.mem_append_left _ (List.mem_map.mpr ⟨e, he, rfl⟩))
      · exact hpart _ _ true (by simp [parts, hswitch]) h
    · exact absurd h List.not_mem_nil
  | _ => exact absurd h List.not_mem_nil

/-- So they are smaller than the entry in which they are read. -/
theorem sizeOf_le_of_mem_stops {name : String} {raw : Value}
    {s : Position × List (Value × Value)} (h : s ∈ raw.stops name) : sizeOf s.2 ≤ sizeOf raw := by
  rcases mem_stops h with hs | ⟨p, hp, hs⟩
  · rw [hs]
    exact sizeOf_nil_le raw
  · rw [hs]
    exact Nat.le_trans (sizeOf_actionEntries_le p.2) (sizeOf_le_of_mem_parts hp)

end Value

/-- The places that a reader of entries comes to. First it finds out whether an entry is an object;
then it goes through the places in it, and through the entries at each of them. -/
def positionsRead : List (Value × Value) → List Position
  | [] => []
  | (key, raw) :: rest =>
    ⟨key.text, .notAnObject raw.typeName, raw, false⟩
      :: ((raw.stops key.text).attach.flatMap fun s => s.1.1 :: positionsRead s.1.2)
      ++ positionsRead rest
termination_by entries => sizeOf entries
decreasing_by
  · have hstop := Value.sizeOf_le_of_mem_stops s.2
    simp only [List.cons.sizeOf_spec, Prod.mk.sizeOf_spec]
    omega
  · simp only [List.cons.sizeOf_spec, Prod.mk.sizeOf_spec]
    omega

theorem positionsRead_cons (key raw : Value) (rest : List (Value × Value)) :
    positionsRead ((key, raw) :: rest)
      = ⟨key.text, .notAnObject raw.typeName, raw, false⟩
        :: ((raw.stops key.text).flatMap fun s => s.1 :: positionsRead s.2)
        ++ positionsRead rest := by
  rw [positionsRead]
  conv_rhs => rw [← List.attach_map_subtype_val (raw.stops key.text), List.flatMap_map]

/-! ## What is reported -/

namespace Action

open Value (actionsStop partStops stops)

theorem runAfterOf_snd (name : String) {fields : List (Value × Value)}
    (h : (Value.map fields).TextKeyed) : (runAfterOf name fields).2
      = Position.events ⟨name, .runAfter, Value.orNull (Value.field? fields "runAfter"), true⟩ := by
  have hkeyed := h.field "runAfter"
  rw [runAfterOf]
  generalize Value.orNull (Value.field? fields "runAfter") = v at hkeyed
  cases v with
  | map entries => exact nameEvents_of_textKeyed hkeyed
  | _ => rfl

/-- What happens at places, and in reading the entries there. -/
def stopEvents (ss : List (Position × List (Value × Value))) : List Event :=
  ss.flatMap fun s => s.1.events ++ (ofEntries s.2).2

theorem stopEvents_cons (s : Position × List (Value × Value))
    (ss : List (Position × List (Value × Value))) :
    stopEvents (s :: ss) = s.1.events ++ (ofEntries s.2).2 ++ stopEvents ss := rfl

theorem stopEvents_append (ss ss' : List (Position × List (Value × Value))) :
    stopEvents (ss ++ ss') = stopEvents ss ++ stopEvents ss' := List.flatMap_append

theorem ofEntries_nil_snd : (ofEntries []).2 = [] := by rw [ofEntries]

/-- No entries are read at the first place. -/
theorem stopEvents_nil_cons (p : Position) (ss : List (Position × List (Value × Value))) :
    stopEvents ((p, []) :: ss) = p.events ++ stopEvents ss := by
  rw [stopEvents_cons, ofEntries_nil_snd, List.append_nil]

theorem stopEvents_nil : stopEvents [] = [] := rfl

theorem branchOf_map_snd (name : String) (part : Part) (fields : List (Value × Value)) :
    (branchOf name part (.map fields)).2 = stopEvents [actionsStop name part fields] := by
  have hentries : (Value.map fields).actionEntries
      = Value.objectEntries (Value.field? fields "actions") := rfl
  rw [actionsStop, hentries, branchOf]
  split
  · rename_i hnull
    have hnone : Value.objectEntries (Value.field? fields "actions") = [] :=
      Value.objectEntries_eq_nil fun entries h => by rw [hnull] at h; cases h
    rw [hnone, stopEvents_nil_cons, hnull]
    rfl
  · rename_i entries hmap
    rw [Value.objectEntries_of_map hmap, hmap]
    exact (List.append_nil _).symm
  · rename_i hnull hother
    rw [Value.objectEntries_eq_nil hother, stopEvents_nil_cons, stopEvents_nil, List.append_nil,
      Position.events_of_other hnull hother]
    rfl

theorem branchOf_snd (name : String) (part : Part) (v : Value) :
    (branchOf name part v).2 = stopEvents (partStops name part v) := by
  rw [partStops, stopEvents_nil_cons]
  cases v with
  | map fields => exact branchOf_map_snd name part fields
  | _ =>
    rw [branchOf.eq_def]
    rfl

theorem casesOf_snd (name : String) {entries : List (Value × Value)}
    (h : (Value.map entries).TextKeyed) : (casesOf name entries).2
      = stopEvents (entries.flatMap fun e => partStops name (.case e.1.literal) e.2) := by
  induction entries with
  | nil =>
    rw [casesOf]
    rfl
  | cons e rest ih =>
    obtain ⟨key, branch⟩ := e
    obtain ⟨⟨s, rfl⟩, -, hrest⟩ := h.tail
    rw [casesOf, List.flatMap_cons, stopEvents_append, ← ih hrest, ← branchOf_snd]
    simp only [nameEvents_str, List.nil_append]

/-- What happens in reading an action: it is no object, or something is met at a place in it. -/
theorem ofValue_snd (name : String) {raw : Value} (h : raw.TextKeyed) : (ofValue name raw).2
    = Position.events ⟨name, .notAnObject raw.typeName, raw, false⟩
      ++ stopEvents (raw.stops name) := by
  cases raw with
  | map fields =>
    have hself : Position.events ⟨name, .notAnObject (Value.map fields).typeName, .map fields,
        false⟩ = [] := rfl
    -- what comes first whatever the kind: the names to run after, and the body
    have hopening : ∀ ss, stopEvents (
        (⟨name, .runAfter, Value.orNull (Value.field? fields "runAfter"), true⟩, [])
          :: actionsStop name .action fields :: ss)
        = (runAfterOf name fields).2 ++ (branchOf name .action (.map fields)).2
          ++ stopEvents ss := by
      intro ss
      rw [runAfterOf_snd name h, branchOf_map_snd, stopEvents_nil_cons, stopEvents_cons,
        stopEvents_cons, stopEvents_nil]
      simp only [List.append_nil, List.append_assoc]
    rw [hself, List.nil_append, stops, hopening]
    by_cases hswitch : kindOf fields = "Switch"
    · have hif : kindOf fields ≠ "If" := by
        rw [hswitch]
        decide
      have hcases := (h.field "cases").objectEntries
      rw [if_neg hif, if_pos hswitch, List.cons_append, stopEvents_nil_cons, stopEvents_append,
        ← casesOf_snd name hcases, ← branchOf_snd name .default, ofValue]
      simp only [if_neg hif, if_pos hswitch]
      split
      · rename_i hnull
        have hnone : Value.objectEntries (Value.field? fields "cases") = [] :=
          Value.objectEntries_eq_nil fun entries h => by rw [hnull] at h; cases h
        rw [hnone, hnull, casesOf]
        simp [Position.events, Position.isMalformed]
      · rename_i entries hmap
        rw [Value.objectEntries_of_map hmap, hmap]
        simp [Position.events, Position.isMalformed]
      · rename_i hnull hother
        rw [Value.objectEntries_eq_nil hother, Position.events_of_other hnull hother, casesOf]
        simp [defect]
    · rw [ofValue]
      simp only [if_neg hswitch]
      split
      · rw [branchOf_snd name .otherwise]
      · split
        · exact (List.append_nil _).symm
        · exact (List.append_nil _).symm
  | _ =>
    rw [ofValue.eq_def]
    rfl

end Action

/-- What happens in reading entries is what happens at the places in them. -/
theorem events_ofEntries {entries : List (Value × Value)} (h : (Value.map entries).TextKeyed) :
    (Action.ofEntries entries).2 = (positionsRead entries).flatMap Position.events := by
  induction entries using entries_induction with
  | nil =>
    rw [Action.ofEntries_nil_snd, positionsRead]
    rfl
  | cons key raw rest ihparts ihrest =>
    obtain ⟨⟨s, rfl⟩, hraw, hrest⟩ := h.tail
    have hstops : Action.stopEvents (raw.stops (Value.str s).text)
        = ((raw.stops (Value.str s).text).flatMap fun s => s.1 :: positionsRead s.2).flatMap
            Position.events := by
      rw [List.flatMap_assoc]
      refine List.flatMap_congr fun stop hstop => ?_
      rw [List.flatMap_cons]
      congr 1
      rcases Value.mem_stops hstop with hnone | ⟨p, hp, hentries⟩
      · rw [hnone, Action.ofEntries_nil_snd, positionsRead]
        rfl
      · rw [hentries]
        exact ihparts p hp (hraw.parts p hp).actionEntries
    rw [Action.ofEntries_cons, Action.nameEvents_str, List.nil_append, Action.ofValue_snd _ hraw,
      ihrest hrest, hstops, positionsRead_cons, List.flatMap_append, List.flatMap_cons]

/-- The actions that are described have the names of the objects, in the same order. -/
theorem Describes.keys {entries : List (Value × Value)} {g : Actions} (h : Describes entries g) :
    Table.keys g = (entries.filter fun e => e.2.entries?.isSome).map fun e => e.1.text := by
  induction h with
  | nil => rfl
  | skip other _ ih => rw [List.filter_cons_of_neg (by simp [other]), ih]
  | take _ _ _ _ ih =>
    rw [List.filter_cons_of_pos rfl, List.map_cons, ← ih]
    rfl

namespace Actions

/-- Entries that are named by texts are read for what they are. The actions have the names of the
objects among them, and are the ones that the entries describe, at every depth; there are no
others that they describe. What is reported are the malformed places, each of them once and in the
order of the document: a log that ignores nothing grows by a warning for each, which names the
action that the place belongs to. -/
theorem ofEntries_interprets {entries : List (Value × Value)}
    (h : (Value.map entries).TextKeyed) :
    Table.keys (ofEntries entries).1
        = (entries.filter fun e => e.2.entries?.isSome).map (fun e => e.1.text) ∧
      (∀ g, Describes entries g ↔ g = (ofEntries entries).1) ∧
      Event.halt? (ofEntries entries).2 = none ∧
      (∀ log : Log, log.ignored = [] →
        (log.recordAll (Event.reports (ofEntries entries).2)).entries
          = log.entries ++ ((positionsRead entries).filter Position.isMalformed).map
              Position.report) ∧
      ∀ p ∈ positionsRead entries, p.report.severity = .warning ∧
        p.report.code = "W_MALFORMED_ACTION" ∧ p.report.action = p.action := by
  have hdescribes := describes_ofEntries h
  have hevents : (ofEntries entries).2
      = (((positionsRead entries).filter Position.isMalformed).map Position.report).map
          Event.report := by
    rw [List.map_map]
    exact (events_ofEntries h).trans (Position.flatMap_events _)
  refine ⟨hdescribes.keys, fun g => ⟨fun hg => hg.unique hdescribes, fun hg => hg ▸ hdescribes⟩,
    ?_, fun log hlog => ?_, fun p _ => ⟨rfl, rfl, rfl⟩⟩
  · exact halt?_ofEntries h
  · rw [Log.entries_recordAll hlog, hevents, Event.reports_map_report]

/-- Something that is no action, a switch of which little is of use, and an action of no kind. -/
def illTypedEntries : List (Value × Value) :=
  [(.str "Later", .int 3),
    (.str "Route", .map [(.str "type", .str "Switch"), (.str "runAfter", .list []),
      (.str "actions", .str "none"),
      (.str "cases", .map [
        (.str "Paid", .map [(.str "actions", .map [(.str "Send", .null)])]),
        (.str "Lost", .bool true)]),
      (.str "default", .map [(.str "actions", .int 0)])]),
    (.str "Wait", .map [(.str "type", .int 5), (.str "runAfter", .map [(.str "Route", .null)])])]

/-- The switch has both cases, without actions, and no default branch. -/
theorem ofEntries_interprets_illTyped :
    (Value.map illTypedEntries).TextKeyed ∧
      (ofEntries illTypedEntries).1
        = [("Route", .switch [] [("Paid", []), ("Lost", [])] none),
          ("Wait", .simple "" ["Route"] [])] ∧
      (Log.recordAll ⟨[], []⟩ (Event.reports (ofEntries illTypedEntries).2)).entries
        = [.malformedAction "Later" (.notAnObject "int"),
          .malformedAction "Route" .runAfter,
          .malformedAction "Route" (.actionsOf .action),
          .malformedAction "Send" (.notAnObject "NoneType"),
          .malformedAction "Route" (.part (.case "'Lost'")),
          .malformedAction "Route" (.actionsOf .default)] := by
  have hkeyed : (Value.map illTypedEntries).TextKeyed := by
    have hroute : (Value.str "Switch").TextKeyed ∧ (Value.list []).TextKeyed ∧
        (Value.str "none").TextKeyed ∧ (Value.bool true).TextKeyed ∧ (Value.int 0).TextKeyed :=
      ⟨.other rfl, .other rfl, .other rfl, .other rfl, .other rfl⟩
    have hothers : (Value.int 3).TextKeyed ∧ (Value.int 5).TextKeyed ∧ Value.null.TextKeyed :=
      ⟨.other rfl, .other rfl, .other rfl⟩
    simp [illTypedEntries, Value.TextKeyed.map_nil, Value.TextKeyed.map_cons, Value.text, hroute,
      hothers]
  have hdescribes : Describes illTypedEntries
      [("Route", .switch [] [("Paid", []), ("Lost", [])] none),
        ("Wait", .simple "" ["Route"] [])] := by
    refine .skip rfl (@Describes.take (.str "Route") _ _ [(.case "Paid", []), (.case "Lost", [])] _
      rfl ?_ (@Describes.take (.str "Wait") _ _ [(.actions, [])] _ rfl ?_ .nil))
    · intro e he
      obtain rfl | rfl : e = ((.case "Paid", .map [(.str "actions", .map [(.str "Send", .null)])]),
          .case "Paid", []) ∨ e = ((.case "Lost", .bool true), .case "Lost", []) :=
        List.mem_pair.mp he
      · exact .skip rfl .nil
      · exact .nil
    · exact fun e he => List.mem_singleton.mp he ▸ .nil
  obtain ⟨-, hactions, -, hreports, -⟩ := ofEntries_interprets hkeyed
  refine ⟨hkeyed, ((hactions _).mp hdescribes).symm, ?_⟩
  have hlost : (Value.str "Lost").literal = "'Lost'" := by decide
  rw [hreports _ rfl]
  simp [illTypedEntries, positionsRead_cons, positionsRead, Value.stops, Value.partStops,
    Value.actionsStop, Value.actionEntries, Value.objectEntries, Value.get?, Value.entries?,
    Value.orNull, Action.kindOf, List.filter_cons, Position.isMalformed, Position.report,
    Value.text, Value.typeName, hlost]

end Actions

end Flowchart
