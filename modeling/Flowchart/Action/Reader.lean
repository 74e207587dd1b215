import Flowchart.Action.Basic
import Flowchart.Diagnostic.Event
import Flowchart.Value.Printer

/-!
# Reading actions

`Actions.ofEntries` reads the actions of a definition. Whatever is not of the expected form is left
out and reported, so reading never fails:

* an action that is no object is skipped,
* a part that is no object counts as absent, and null counts as absent without a report,
* a name that cannot be written halts the reading there.

Every reader gives what it has read and what happens on the way, in the order of the document.
-/

namespace Flowchart

namespace Value

/-- A field is smaller than the entries it is found in. -/
theorem sizeOf_field?_lt {entries : List (Value × Value)} {name : String} {v : Value}
    (h : field? entries name = some v) : sizeOf v < sizeOf entries := by
  unfold field? at h
  induction entries with
  | nil => simp at h
  | cons e rest ih =>
    obtain ⟨k, w⟩ := e
    rw [List.lookup_cons] at h
    split at h
    · cases h
      simp only [List.cons.sizeOf_spec, Prod.mk.sizeOf_spec]
      omega
    · have := ih h
      simp only [List.cons.sizeOf_spec]
      omega

/-- A field of a map is smaller than the map, also when it is absent. -/
theorem sizeOf_orNull_field?_lt (entries : List (Value × Value)) (name : String) :
    sizeOf (orNull (field? entries name)) < sizeOf (map entries) := by
  rw [map.sizeOf_spec]
  cases h : field? entries name with
  | none =>
    have : 0 < sizeOf entries := by
      cases entries with
      | nil => exact Nat.one_pos
      | cons e rest =>
        rw [List.cons.sizeOf_spec]
        omega
    rw [orNull, Option.getD_none, null.sizeOf_spec]
    omega
  | some v =>
    have := sizeOf_field?_lt h
    rw [orNull, Option.getD_some]
    omega

end Value

namespace Action

/-- The kind of an action; anything but a text counts as none. -/
def kindOf (fields : List (Value × Value)) : String :=
  match Value.field? fields "type" with
  | some (.str kind) => kind
  | _ => ""

/-- What happens when a key becomes a name. -/
def nameEvents (key : Value) : List Event :=
  if key.isWritable then [] else [.halt .writing]

/-- The report of a defect of an action. -/
def defect (name : String) (d : Defect) : Event := .report (.malformedAction name d)

/-- The names that an action runs after: the keys of an object. -/
def runAfterOf (name : String) (fields : List (Value × Value)) : List String × List Event :=
  match Value.orNull (Value.field? fields "runAfter") with
  | .null => ([], [])
  | .map entries => (entries.map fun (k, _) => k.text, entries.flatMap fun (k, _) => nameEvents k)
  | _ => ([], [defect name .runAfter])

/-- The container kind that a text names. -/
def scopeKind? (kind : String) : Option ScopeKind :=
  [ScopeKind.forEach, .doUntil, .scope].find? (·.name == kind)

mutual

/-- The actions of a part of the action `name`; none if the part or its actions are absent. -/
def branchOf (name : String) (part : Part) (container : Value) :
    Option Actions × List Event :=
  match container with
  | .null => (none, [])
  | .map fields =>
    match _h : Value.orNull (Value.field? fields "actions") with
    | .null => (none, [])
    | .map entries =>
      let (actions, events) := ofEntries entries
      (some (Table.ofEntries actions), events)
    | _ => (none, [defect name (.actionsOf part)])
  | _ => (none, [defect name (.part part)])
termination_by (sizeOf container, 0)
decreasing_by
  have := Value.sizeOf_orNull_field?_lt fields "actions"
  rw [_h] at this
  apply Prod.Lex.left
  simp only [Value.map.sizeOf_spec] at this ⊢
  omega

/-- The action that a definition describes, if it is an object. -/
def ofValue (name : String) (raw : Value) : Option Action × List Event :=
  match raw with
  | .map fields =>
    let kind := kindOf fields
    let (runAfter, runAfterEvents) := runAfterOf name fields
    -- the body is read whatever the kind, also where it is not kept
    let (body, bodyEvents) := branchOf name .action (.map fields)
    let events := runAfterEvents ++ bodyEvents
    if kind = "If" then
      let (no, noEvents) :=
        branchOf name .otherwise (Value.orNull (Value.field? fields "else"))
      (some (.condition runAfter (body.getD []) (no.getD [])), events ++ noEvents)
    else if kind = "Switch" then
      let (cases, caseEvents) :=
        match _h : Value.orNull (Value.field? fields "cases") with
        | .null => ([], [])
        | .map entries => casesOf name entries
        | _ => ([], [defect name .cases])
      let (default, defaultEvents) :=
        branchOf name .default (Value.orNull (Value.field? fields "default"))
      (some (.switch runAfter (Table.ofEntries cases) default),
        events ++ caseEvents ++ defaultEvents)
    else
      match scopeKind? kind with
      | some kind => (some (.scope kind runAfter (body.getD [])), events)
      | none => (some (.simple kind runAfter (body.getD [])), events)
  | _ => (none, [defect name (.notAnObject raw.typeName)])
termination_by (sizeOf raw, 1)
decreasing_by
  · exact Prod.Lex.right _ (by omega)
  · exact Prod.Lex.left _ _ (Value.sizeOf_orNull_field?_lt fields "else")
  · have := Value.sizeOf_orNull_field?_lt fields "cases"
    rw [_h] at this
    apply Prod.Lex.left
    simp only [Value.map.sizeOf_spec] at this ⊢
    omega
  · exact Prod.Lex.left _ _ (Value.sizeOf_orNull_field?_lt fields "default")

/-- The cases of a switch; one without usable actions is an empty case. -/
def casesOf (name : String) (entries : List (Value × Value)) :
    List (String × Actions) × List Event :=
  match entries with
  | [] => ([], [])
  | (key, branch) :: rest =>
    let (body, events) := branchOf name (.case key.literal) branch
    let (cases, more) := casesOf name rest
    ((key.text, body.getD []) :: cases, nameEvents key ++ events ++ more)
termination_by (sizeOf entries, 2)
decreasing_by
  · apply Prod.Lex.left
    simp only [List.cons.sizeOf_spec, Prod.mk.sizeOf_spec]
    omega
  · apply Prod.Lex.left
    simp only [List.cons.sizeOf_spec, Prod.mk.sizeOf_spec]
    omega

/-- The actions among the entries of an object. -/
def ofEntries (entries : List (Value × Value)) : List (String × Action) × List Event :=
  match entries with
  | [] => ([], [])
  | (key, raw) :: rest =>
    let (action, events) := ofValue key.text raw
    let (actions, more) := ofEntries rest
    ((action.map (key.text, ·)).toList ++ actions, nameEvents key ++ events ++ more)
termination_by (sizeOf entries, 2)
decreasing_by
  · apply Prod.Lex.left
    simp only [List.cons.sizeOf_spec, Prod.mk.sizeOf_spec]
    omega
  · apply Prod.Lex.left
    simp only [List.cons.sizeOf_spec, Prod.mk.sizeOf_spec]
    omega

end

end Action

/-- The actions that the entries of an object describe. If two keys have the same text, the later
action takes the place of the earlier one. -/
def Actions.ofEntries (entries : List (Value × Value)) : Actions × List Event :=
  let (actions, events) := Action.ofEntries entries
  (Table.ofEntries actions, events)

end Flowchart
