import Flowchart.Proofs.Acceptance
import Flowchart.Proofs.Requests

/-!
# How a conversion ends

A text gives a diagram, or it is refused because it is no document or because the document has no
actions. The limit on digits is a third way to end without a diagram.

* `Definition.HasActions` says where the actions are looked for;
* `exists_limit_of_ofEntries`: reading the actions of a JSON document never halts, so if the work
  halts, then at a label;
* `convertJson_outcome` tells the endings apart, and `convertJson_long_integer` is a text that ends
  at the limit.
-/

namespace Flowchart

/-! ## Where actions are found -/

namespace Definition

/-- An object at the key of the actions, at the top of a definition or in the place of an export. -/
def HasActions (definition : Value) : Prop :=
  (∃ entries, definition.get? "actions" = some (.map entries)) ∨
    ∃ entries, at? definition exportPath = some (.map entries)

theorem bind_entries?_eq_none {v : Option Value} :
    v.bind Value.entries? = none ↔ ¬∃ entries, v = some (.map entries) := by
  cases v with
  | none => simp
  | some v => cases v <;> simp [Value.entries?]

theorem actions?_eq_none {definition : Value} :
    actions? definition = none ↔ ¬HasActions definition := by
  rw [actions?, Option.or_eq_none_iff, bind_entries?_eq_none, bind_entries?_eq_none, HasActions,
    not_or]

end Definition

namespace Value.TextKeyed

variable {v : Value}

theorem get? (h : v.TextKeyed) {name : String} {w : Value} (hw : v.get? name = some w) :
    w.TextKeyed := by
  cases v with
  | map fields =>
    have hfield : field? fields name = some w := hw
    have hkeyed := h.field name
    rwa [hfield] at hkeyed
  | _ => cases hw

theorem at? (h : v.TextKeyed) {path : List String} {w : Value}
    (hw : Definition.at? v path = some w) : w.TextKeyed := by
  induction path generalizing v with
  | nil =>
    cases hw
    exact h
  | cons key rest ih =>
    obtain ⟨next, hnext, hw⟩ := Option.bind_eq_some_iff.mp hw
    exact ih (h.get? hnext) hw

/-- The actions of a value that is keyed by texts are keyed by texts. -/
theorem actions? (h : v.TextKeyed) {entries : List (Value × Value)}
    (hentries : Definition.actions? v = some entries) : (Value.map entries).TextKeyed := by
  have hmap : ∀ {w : Option Value}, w.bind Value.entries? = some entries →
      w = some (.map entries) := by
    intro w hw
    obtain ⟨w, rfl, hw⟩ := Option.bind_eq_some_iff.mp hw
    cases w with
    | map entries' =>
      cases hw
      rfl
    | _ => cases hw
  rcases Option.or_eq_some_iff.mp hentries with htop | ⟨-, hexport⟩
  · exact h.get? (hmap htop)
  · exact h.at? (hmap hexport)

end Value.TextKeyed

namespace Diagram

/-! ## Where the work halts -/

/-- If the work on actions that are keyed by texts halts, it halts at a label of their tree. -/
theorem exists_limit_of_ofEntries {config : Config} {entries : List (Value × Value)}
    (h : (Value.map entries).TextKeyed) {e : Decimal.LimitError}
    (he : (Conversion.ofEntries config entries).halt? = some e) :
    ∃ label ∈ (Actions.ofEntries entries).1.labels config.styles, labelLimit? label = some e := by
  obtain ⟨t, ht, hhalts⟩ := ofEntries_halts config entries
  rw [hhalts, halt?_ofEntries h, Option.none_or] at he
  obtain ⟨label, hlabel, hlimit⟩ := Canvas.exists_limit_of_findSome? he
  -- the visits of the top-level actions ask for no labels of their own
  have hroot := labels_memberTasks ⟨none, .none, none, ""⟩ true
    ((Actions.ofEntries entries).1.children [])
  refine ⟨label, ?_, hlimit⟩
  rcases List.mem_append.mp (ht.walks.labels_subset hlabel) with hown | htree
  · exact absurd (hroot hown) List.not_mem_nil
  · exact htree

/-! ## The endings -/

/-- The three ways in which a text may end, each for texts of its own. -/
structure Ends (log : Log) (text : String) (result : Log × Except ConversionError Conversion) :
    Prop where
  read_iff : (∃ definition, Json.read text = .ok definition) ↔ Json.IsDocument text.toList
  malformed_iff : (∃ problem line column offset,
      result.2 = .error (.json (.malformed problem line column offset))) ↔
    ¬Json.IsDocument text.toList
  noActions_iff : result.2 = .error .noActions ↔
    ∃ definition, Json.read text = .ok definition ∧ ¬Definition.HasActions definition
  ok_iff : (∃ c, result.2 = .ok c) ↔
    ∃ definition, Json.read text = .ok definition ∧ Definition.HasActions definition
  /-- What is refused leaves no trace. -/
  log_eq : (∀ c, result.2 ≠ .ok c) → result.1 = log

/-- A text that is no document is refused. -/
theorem ends_malformed {log : Log} {text : String} {problem : Json.Problem}
    {line column offset : Nat}
    (hread : Json.read text = .error (.malformed problem line column offset))
    (h : ¬Json.IsDocument text.toList) :
    Ends log text (log, .error (.json (.malformed problem line column offset))) where
  read_iff := by simp [hread, h]
  malformed_iff := iff_of_true ⟨_, _, _, _, rfl⟩ h
  noActions_iff := by simp [hread]
  ok_iff := by simp [hread]
  log_eq _ := rfl

/-- A document without actions is refused. -/
theorem ends_noActions {log : Log} {text : String} {definition : Value}
    (hread : Json.read text = .ok definition) (h : Json.IsDocument text.toList)
    (hactions : ¬Definition.HasActions definition) :
    Ends log text (log, .error .noActions) where
  read_iff := iff_of_true ⟨definition, hread⟩ h
  malformed_iff := by simp [h]
  noActions_iff := by simp [hread, hactions]
  ok_iff := by simp [hread, hactions]
  log_eq _ := rfl

/-- A document with actions is converted. -/
theorem ends_ok {log log' : Log} {text : String} {definition : Value} {c : Conversion}
    (hread : Json.read text = .ok definition) (h : Json.IsDocument text.toList)
    (hactions : Definition.HasActions definition) : Ends log text (log', .ok c) where
  read_iff := iff_of_true ⟨definition, hread⟩ h
  malformed_iff := by simp [h]
  noActions_iff := by simp [hread, hactions]
  ok_iff := by simp [hread, hactions]
  log_eq hc := absurd rfl (hc c)

/-- A document is converted, or its conversion ends for want of actions or at a label. -/
theorem convert_ends (config : Config) (log : Log) {text : String} {definition : Value}
    (hread : Json.read text = .ok definition) (h : Json.IsDocument text.toList)
    (hkeyed : definition.TextKeyed) :
    (∃ actions e, Definition.tree? definition = some actions ∧
      (convert config log definition).2 = .error (.limit e) ∧
      ∃ label ∈ actions.labels config.styles, labelLimit? label = some e) ∨
    Ends log text (convert config log definition) := by
  cases hactions : Definition.actions? definition with
  | none =>
    have hconvert : convert config log definition = (log, .error .noActions) := by
      simp only [convert, hactions]
      rfl
    rw [hconvert]
    exact Or.inr (ends_noActions hread h (Definition.actions?_eq_none.mp hactions))
  | some entries =>
    have hhas : Definition.HasActions definition := by
      by_contra hnone
      rw [Definition.actions?_eq_none.mpr hnone] at hactions
      cases hactions
    cases hhalt : (Conversion.ofEntries config entries).halt? with
    | none =>
      have hconvert : convert config log definition
          = (log.recordAll (Conversion.ofEntries config entries).reports,
            .ok (Conversion.ofEntries config entries)) := by
        simp only [convert, hactions, hhalt]
        rfl
      rw [hconvert]
      exact Or.inr (ends_ok hread h hhas)
    | some e =>
      have hconvert : (convert config log definition).2 = .error (.limit e) := by
        simp only [convert, hactions, hhalt]
        rfl
      refine Or.inl ⟨(Actions.ofEntries entries).1, e, ?_, hconvert,
        exists_limit_of_ofEntries (hkeyed.actions? hactions) hhalt⟩
      rw [Definition.tree?, hactions]
      rfl

/-- Reading may stop at a number that is too long, or drawing at a label. Else a text is converted
just if it is a document with an object of actions at one of two places; it is refused as malformed
just if it is no document, and for its structure just if it is one without actions. Whatever is
refused leaves the log as it was. -/
theorem convertJson_outcome (config : Config) (log : Log) (text : String) :
    (∃ e, convertJson config log text = (log, .error (.json (.limit e))) ∧
      Json.HasLongNumber text.toList) ∨
    (∃ definition actions e, Json.read text = .ok definition ∧
      Definition.tree? definition = some actions ∧
      (convertJson config log text).2 = .error (.limit e) ∧
      ∃ label ∈ actions.labels config.styles, labelLimit? label = some e) ∨
    Ends log text (convertJson config log text) := by
  have hspec := Json.read_spec text
  cases hread : Json.read text with
  | error e =>
    have hresult : convertJson config log text = (log, .error (.json e)) := by
      rw [convertJson, readJson, hread]
      rfl
    rw [hread] at hspec
    rw [hresult]
    cases e with
    | malformed problem line column offset => exact Or.inr (Or.inr (ends_malformed hread hspec))
    | limit e => exact Or.inl ⟨e, rfl, hspec⟩
  | ok definition =>
    have hresult : convertJson config log text = convert config log definition := by
      rw [convertJson, readJson, hread]
      rfl
    rw [hread] at hspec
    rw [hresult]
    rcases convert_ends config log hread hspec.1 hspec.2 with ⟨actions, e, hlimit⟩ | hends
    · exact Or.inr (Or.inl ⟨definition, actions, e, rfl, hlimit⟩)
    · exact Or.inr (Or.inr hends)

/-- An integer of too many digits is a document, and its conversion ends in none of the three
ways. -/
theorem convertJson_long_integer :
    let text := String.ofList (List.replicate 4301 '1')
    let result := convertJson {} ⟨[], []⟩ text
    Json.IsDocument text.toList ∧ result = (⟨[], []⟩, .error (.json (.limit (.reading 4301)))) ∧
      ¬((∃ c, result.2 = .ok c) ∨ (∃ problem line column offset,
          result.2 = .error (.json (.malformed problem line column offset))) ∨
        result.2 = .error .noActions) := by
  intro text result
  have hdigits : ∀ c ∈ List.replicate 4301 '1', c.isDigit := fun c hc => by
    rw [List.eq_of_mem_replicate hc]
    rfl
  have hzero : (List.replicate 4301 '1').head? ≠ some '0' := by
    rw [List.head?_replicate]
    decide
  have hlength : (List.replicate 4301 '1').length = 4301 := List.length_replicate
  have hdocument : Json.IsDocument text.toList := by
    rw [String.toList_ofList]
    exact Json.isDocument_of_digits hdigits hzero (List.ne_nil_of_length_pos (by omega))
  have hread := Json.read_of_long_digits hdigits hzero (by rw [hlength]; decide)
  rw [hlength] at hread
  have hresult : result = (⟨[], []⟩, .error (.json (.limit (.reading 4301)))) := by
    show convertJson {} ⟨[], []⟩ text = _
    rw [convertJson, readJson, hread]
    rfl
  refine ⟨hdocument, hresult, ?_⟩
  rw [hresult]
  rintro (⟨c, h⟩ | ⟨problem, line, column, offset, h⟩ | h)
  all_goals cases h

end Diagram

end Flowchart
