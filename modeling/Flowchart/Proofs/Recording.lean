import Flowchart.Proofs.Reports

/-!
# Reading with the log at hand

A conversion first finds out what there is to report, and then records it. Here whatever is found in
a definition goes to the log on the spot, and a listener is told of it if the log keeps it.

* `Recorder` is a log with a listener, `Recorder.tell` and `Recorder.follow` are what it does;
* `Hearing` is work with a recorder at hand, and `Hears` says that it follows certain events and has
  a certain outcome;
* `Action.entriesAloud` reads actions that way, and `Index.addAllAloud` indexes them:
  `Action.hears_entriesAloud` and `Index.hears_addAllAloud` say that they find and report the same.
-/

namespace Flowchart

/-! ## Listeners -/

/-- A log, and what a listener has made of the diagnostics that the log has kept. -/
structure Recorder (σ : Type) where
  log : Log
  heard : σ

namespace Recorder

variable {σ : Type} (hear : σ → Diagnostic → σ)

/-- Records a diagnostic, and tells the listener of it unless the log ignores it. -/
def tell (r : Recorder σ) (d : Diagnostic) : Recorder σ :=
  if r.log.accepts d then ⟨r.log.record d, hear r.heard d⟩ else r

/-- Records diagnostics one after another. -/
def tellAll (r : Recorder σ) (ds : List Diagnostic) : Recorder σ := ds.foldl (tell hear) r

/-- Follows what happens up to the first halt. -/
def follow (r : Recorder σ) : List Event → Except (Decimal.LimitError × Recorder σ) (Recorder σ)
  | [] => .ok r
  | .report d :: rest => (r.tell hear d).follow rest
  | .halt e :: _ => .error (e, r)

/-- Neither the log nor the listener gets what is ignored. -/
theorem tellAll_eq (r : Recorder σ) (ds : List Diagnostic) : r.tellAll hear ds
    = ⟨r.log.recordAll ds, (ds.filter r.log.accepts).foldl hear r.heard⟩ := by
  induction ds generalizing r with
  | nil => rw [Log.recordAll_nil]; rfl
  | cons d rest ih =>
    have htell : r.tellAll hear (d :: rest) = (r.tell hear d).tellAll hear rest := rfl
    rw [htell, ih, Log.recordAll_cons]
    cases hd : r.log.accepts d with
    | false =>
      have hrecord : r.log.record d = r.log := by simp [Log.record, hd]
      simp [tell, hd, hrecord]
    | true =>
      -- what a log ignores does not depend on its entries
      have haccepts : (r.log.record d).accepts = r.log.accepts := by
        rw [Log.record, if_pos hd]
        rfl
      simp [tell, hd, haccepts]

/-- What has been reported is told, also if the work halts then. -/
theorem follow_eq (r : Recorder σ) (es : List Event) : r.follow hear es
    = match Event.halt? es with
      | some e => .error (e, r.tellAll hear (Event.reports es))
      | none => .ok (r.tellAll hear (Event.reports es)) := by
  induction es generalizing r with
  | nil => rfl
  | cons e rest ih =>
    cases e with
    | report d => exact ih (r.tell hear d)
    | halt e => rfl

theorem follow_append (r : Recorder σ) (es fs : List Event) :
    r.follow hear (es ++ fs) = (r.follow hear es).bind fun r => r.follow hear fs := by
  induction es generalizing r with
  | nil => rfl
  | cons e rest ih =>
    cases e with
    | report d => exact ih (r.tell hear d)
    | halt e => rfl

end Recorder

/-! ## Work with a recorder -/

/-- Work that tells a recorder what it finds. It may halt, and leaves the recorder then too. -/
abbrev Hearing (σ α : Type) : Type :=
  StateT (Recorder σ) (Except (Decimal.LimitError × Recorder σ)) α

section Hearing

variable {σ α β : Type} (hear : σ → Diagnostic → σ)

/-- What happens on the spot. -/
def happen (es : List Event) : Hearing σ Unit := fun r => (r.follow hear es).map fun r => ((), r)

/-- Work that comes to the same as finding out first what will happen. -/
def Hears (work : Hearing σ α) (read : α × List Event) : Prop :=
  ∀ r, work r = (r.follow hear read.2).map fun r => (read.1, r)

variable {hear}

theorem hears_pure (a : α) : Hears hear (pure a) (a, []) := fun _ => rfl

theorem hears_happen (es : List Event) : Hears hear (happen hear es) ((), es) := fun _ => rfl

/-- What the first part finds out is known to the second. -/
theorem Hears.bind {work : Hearing σ α} {next : α → Hearing σ β} {read : α × List Event}
    {more both : β × List Event} (h : Hears hear work read) (h' : Hears hear (next read.1) more)
    (hboth : both = (more.1, read.2 ++ more.2)) : Hears hear (work >>= next) both := by
  subst hboth
  intro r
  have hrun : (work >>= next) r = (work r).bind fun (a, r) => next a r := rfl
  rw [hrun, h r, Recorder.follow_append]
  cases r.follow hear read.2 with
  | error e => rfl
  | ok r => exact h' r

/-- The outcome may be put in another form. -/
theorem Hears.bind_pure {work : Hearing σ α} {read : α × List Event} (h : Hears hear work read)
    (f : α → β) : Hears hear (work >>= fun a => pure (f a)) (f read.1, read.2) :=
  h.bind (hears_pure (f read.1)) (by rw [List.append_nil])

theorem Hears.mapM {f : α → Hearing σ β} {g : α → β × List Event}
    (h : ∀ a, Hears hear (f a) (g a)) (as : List α) :
    Hears hear (as.mapM f) (as.map fun a => (g a).1, as.flatMap fun a => (g a).2) := by
  induction as with
  | nil => exact hears_pure []
  | cons a rest ih =>
    rw [List.mapM_cons]
    exact (h a).bind (ih.bind_pure fun bs => (g a).1 :: bs) rfl

end Hearing

/-! ## Reading -/

namespace Action

section Reading

variable {σ : Type} (hear : σ → Diagnostic → σ)

/-- Reads the names that an action runs after. -/
def runAfterAloud (name : String) (fields : List (Value × Value)) : Hearing σ (List String) :=
  match Value.orNull (Value.field? fields "runAfter") with
  | .null => pure []
  | .map entries => entries.mapM fun (k, _) => do
    happen hear (nameEvents k)
    return k.text
  | _ => do
    happen hear [defect name .runAfter]
    return []

mutual

/-- Reads the actions of a part of the action `name`. -/
def branchAloud (name : String) (part : Part) (container : Value) :
    Hearing σ (Option Actions) :=
  match container with
  | .null => pure none
  | .map fields =>
    match _h : Value.orNull (Value.field? fields "actions") with
    | .null => pure none
    | .map entries => do
      let actions ← entriesAloud entries
      return some (Table.ofEntries actions)
    | _ => do
      happen hear [defect name (.actionsOf part)]
      return none
  | _ => do
    happen hear [defect name (.part part)]
    return none
termination_by (sizeOf container, 0)
decreasing_by
  have := Value.sizeOf_orNull_field?_lt fields "actions"
  rw [_h] at this
  apply Prod.Lex.left
  simp only [Value.map.sizeOf_spec] at this ⊢
  omega

/-- Reads the action that a definition describes. -/
def valueAloud (name : String) (raw : Value) : Hearing σ (Option Action) :=
  match raw with
  | .map fields => do
    let kind := kindOf fields
    let runAfter ← runAfterAloud hear name fields
    let body ← branchAloud name .action (.map fields)
    if kind = "If" then
      let no ← branchAloud name .otherwise (Value.orNull (Value.field? fields "else"))
      return some (.condition runAfter (body.getD []) (no.getD []))
    else if kind = "Switch" then
      let cases ←
        (match _h : Value.orNull (Value.field? fields "cases") with
        | .null => pure []
        | .map entries => casesAloud name entries
        | _ => do
          happen hear [defect name .cases]
          return [])
      let default ← branchAloud name .default (Value.orNull (Value.field? fields "default"))
      return some (.switch runAfter (Table.ofEntries cases) default)
    else
      match scopeKind? kind with
      | some kind => return some (.scope kind runAfter (body.getD []))
      | none => return some (.simple kind runAfter (body.getD []))
  | _ => do
    happen hear [defect name (.notAnObject raw.typeName)]
    return none
termination_by (sizeOf raw, 1)
decreasing_by
  · exact Prod.Lex.right _ (by omega)
  · exact Prod.Lex.left _ _ (Value.sizeOf_orNull_field?_lt fields "else")
  · have := Value.sizeOf_orNull_field?_lt fields "cases"
    rw [_h] at this
    apply Prod.Lex.left
    simp only [Value.map.sizeOf_spec] at this ⊢
    omega
  · exact Prod.Lex.left _ _ (Value.sizeOf_orNull_field?_lt fields "default")

/-- Reads the cases of a switch. -/
def casesAloud (name : String) (entries : List (Value × Value)) :
    Hearing σ (List (String × Actions)) :=
  match entries with
  | [] => pure []
  | (key, branch) :: rest => do
    happen hear (nameEvents key)
    let body ← branchAloud name (.case key.literal) branch
    let cases ← casesAloud name rest
    return (key.text, body.getD []) :: cases
termination_by (sizeOf entries, 2)
decreasing_by
  · apply Prod.Lex.left
    simp only [List.cons.sizeOf_spec, Prod.mk.sizeOf_spec]
    omega
  · apply Prod.Lex.left
    simp only [List.cons.sizeOf_spec, Prod.mk.sizeOf_spec]
    omega

/-- Reads the actions among the entries of an object. -/
def entriesAloud (entries : List (Value × Value)) : Hearing σ (List (String × Action)) :=
  match entries with
  | [] => pure []
  | (key, raw) :: rest => do
    happen hear (nameEvents key)
    let action ← valueAloud key.text raw
    let actions ← entriesAloud rest
    return (action.map (key.text, ·)).toList ++ actions
termination_by (sizeOf entries, 2)
decreasing_by
  · apply Prod.Lex.left
    simp only [List.cons.sizeOf_spec, Prod.mk.sizeOf_spec]
    omega
  · apply Prod.Lex.left
    simp only [List.cons.sizeOf_spec, Prod.mk.sizeOf_spec]
    omega

end

variable {hear}

theorem hears_runAfterAloud (name : String) (fields : List (Value × Value)) :
    Hears hear (runAfterAloud hear name fields) (runAfterOf name fields) := by
  unfold runAfterAloud runAfterOf
  cases Value.orNull (Value.field? fields "runAfter") with
  | null => exact hears_pure []
  | map entries =>
    exact Hears.mapM (g := fun e => (e.1.text, nameEvents e.1))
      (fun e => (hears_happen (nameEvents e.1)).bind_pure fun _ => e.1.text) entries
  | _ => exact (hears_happen [defect name .runAfter]).bind_pure fun _ => []

mutual

theorem hears_branchAloud (name : String) (part : Part) (container : Value) :
    Hears hear (branchAloud hear name part container) (branchOf name part container) := by
  rw [branchAloud.eq_def, branchOf.eq_def]
  cases container with
  | null => exact hears_pure none
  | map fields =>
    dsimp only
    have hsize := Value.sizeOf_orNull_field?_lt fields "actions"
    generalize Value.orNull (Value.field? fields "actions") = v at hsize ⊢
    cases v with
    | null => exact hears_pure none
    | map entries =>
      exact (hears_entriesAloud entries).bind_pure fun actions => some (Table.ofEntries actions)
    | _ => exact (hears_happen [defect name (.actionsOf part)]).bind_pure fun _ => none
  | _ => exact (hears_happen [defect name (.part part)]).bind_pure fun _ => none
termination_by (sizeOf container, 0)
decreasing_by
  apply Prod.Lex.left
  simp only [Value.map.sizeOf_spec] at hsize ⊢
  omega

theorem hears_valueAloud (name : String) (raw : Value) :
    Hears hear (valueAloud hear name raw) (ofValue name raw) := by
  rw [valueAloud.eq_def, ofValue.eq_def]
  cases raw with
  | map fields =>
    dsimp only
    have hrunAfter : Hears hear (runAfterAloud hear name fields) (runAfterOf name fields) :=
      hears_runAfterAloud name fields
    have hbody := hears_branchAloud name .action (.map fields)
    by_cases hif : kindOf fields = "If"
    · simp only [if_pos hif]
      have hno := hears_branchAloud name .otherwise (Value.orNull (Value.field? fields "else"))
      exact hrunAfter.bind (hbody.bind (hno.bind_pure _) rfl) (by rw [List.append_assoc])
    by_cases hswitch : kindOf fields = "Switch"
    · simp only [if_neg hif, if_pos hswitch]
      have hdefault :=
        hears_branchAloud name .default (Value.orNull (Value.field? fields "default"))
      have hsize := Value.sizeOf_orNull_field?_lt fields "cases"
      generalize Value.orNull (Value.field? fields "cases") = v at hsize ⊢
      refine hrunAfter.bind (hbody.bind (Hears.bind ?_ (hdefault.bind_pure _) rfl) rfl)
        (by rw [List.append_assoc, List.append_assoc])
      cases v with
      | null => exact hears_pure []
      | map entries => exact hears_casesAloud name entries
      | _ => exact (hears_happen [defect name .cases]).bind_pure fun _ => []
    · simp only [if_neg hif, if_neg hswitch]
      cases scopeKind? (kindOf fields) with
      | some kind => exact hrunAfter.bind (hbody.bind_pure _) rfl
      | none => exact hrunAfter.bind (hbody.bind_pure _) rfl
  | _ => exact (hears_happen _).bind_pure fun _ => none
termination_by (sizeOf raw, 1)
decreasing_by
  · exact Prod.Lex.right _ (by omega)
  · exact Prod.Lex.left _ _ (Value.sizeOf_orNull_field?_lt fields "else")
  · exact Prod.Lex.left _ _ (Value.sizeOf_orNull_field?_lt fields "default")
  · apply Prod.Lex.left
    simp only [Value.map.sizeOf_spec] at hsize ⊢
    omega

theorem hears_casesAloud (name : String) (entries : List (Value × Value)) :
    Hears hear (casesAloud hear name entries) (casesOf name entries) := by
  rw [casesAloud.eq_def, casesOf.eq_def]
  match entries with
  | [] => exact hears_pure []
  | (key, branch) :: rest =>
    dsimp only
    exact (hears_happen (nameEvents key)).bind
      ((hears_branchAloud name (.case key.literal) branch).bind
        ((hears_casesAloud name rest).bind_pure _) rfl)
      (by rw [List.append_assoc])
termination_by (sizeOf entries, 2)
decreasing_by
  · apply Prod.Lex.left
    simp only [List.cons.sizeOf_spec, Prod.mk.sizeOf_spec]
    omega
  · apply Prod.Lex.left
    simp only [List.cons.sizeOf_spec, Prod.mk.sizeOf_spec]
    omega

theorem hears_entriesAloud (entries : List (Value × Value)) :
    Hears hear (entriesAloud hear entries) (ofEntries entries) := by
  rw [entriesAloud.eq_def, ofEntries.eq_def]
  match entries with
  | [] => exact hears_pure []
  | (key, raw) :: rest =>
    dsimp only
    exact (hears_happen (nameEvents key)).bind
      ((hears_valueAloud key.text raw).bind ((hears_entriesAloud rest).bind_pure _) rfl)
      (by rw [List.append_assoc])
termination_by (sizeOf entries, 2)
decreasing_by
  · apply Prod.Lex.left
    simp only [List.cons.sizeOf_spec, Prod.mk.sizeOf_spec]
    omega
  · apply Prod.Lex.left
    simp only [List.cons.sizeOf_spec, Prod.mk.sizeOf_spec]
    omega

end

end Reading

end Action

namespace Index

section Indexing

variable {σ : Type} (hear : σ → Diagnostic → σ)

/-- Adds declarations one after another, and reports what each of them replaces. -/
def addAllAloud (index : Index) : List Declaration → Hearing σ Index
  | [] => pure index
  | d :: rest => do
    happen hear ((index.add d).2.map .report)
    addAllAloud (index.add d).1 rest

variable {hear}

theorem hears_addAllAloud (index : Index) (ds : List Declaration) :
    Hears hear (addAllAloud hear index ds)
      ((index.addAll ds).1, (index.addAll ds).2.map .report) := by
  induction ds generalizing index with
  | nil => exact hears_pure index
  | cons d rest ih =>
    exact (hears_happen _).bind (ih (index.add d).1) (congrArg (Prod.mk _) List.map_append)

end Indexing

end Index

end Flowchart
