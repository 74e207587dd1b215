import Flowchart.Action.Index
import Flowchart.Action.Reader

/-!
# What is reported before anything is drawn

Reading reports defects and halts at names that cannot be written; indexing reports names that are
declared again. None of this is about a drawing.

* `Event.IsPreliminary` is this kind of event,
* `preliminary_ofEntries` and `preliminary_addAll`: reading and indexing give no other.
-/

namespace Flowchart

/-- Something that may happen before the drawing. -/
def Event.IsPreliminary : Event → Prop
  | .halt _ | .report (.malformedAction _ _) | .report (.duplicateName _ _) => True
  | .report _ => False

/-- An event of this kind, or one that was met in reading entries below a size. -/
def Event.MetWithin (bound : Nat) (e : Event) : Prop :=
  e.IsPreliminary ∨ ∃ entries : List (Value × Value),
    sizeOf entries < bound ∧ e ∈ (Action.ofEntries entries).2

theorem Event.MetWithin.mono {bound bound' : Nat} {e : Event} (h : e.MetWithin bound)
    (hle : bound ≤ bound') : e.MetWithin bound' := by
  rcases h with h | ⟨entries, hsize, he⟩
  · exact Or.inl h
  · exact Or.inr ⟨entries, Nat.lt_of_lt_of_le hsize hle, he⟩

namespace Action

theorem preliminary_nameEvents (key : Value) : ∀ e ∈ nameEvents key, e.IsPreliminary := by
  intro e he
  rw [nameEvents] at he
  split at he
  · exact absurd he List.not_mem_nil
  · exact List.mem_singleton.mp he ▸ trivial

theorem preliminary_defect {name : String} {d : Defect} {e : Event} (he : e ∈ [defect name d]) :
    e.IsPreliminary :=
  List.mem_singleton.mp he ▸ trivial

theorem preliminary_runAfterOf (name : String) (fields : List (Value × Value)) :
    ∀ e ∈ (runAfterOf name fields).2, e.IsPreliminary := by
  intro e he
  rw [runAfterOf] at he
  split at he
  · exact absurd he List.not_mem_nil
  · obtain ⟨⟨key, _⟩, -, he⟩ := List.mem_flatMap.mp he
    exact preliminary_nameEvents key e he
  · exact preliminary_defect he

theorem branchOf_metWithin (name : String) (part : Part) (container : Value) :
    ∀ e ∈ (branchOf name part container).2, e.MetWithin (sizeOf container) := by
  intro e he
  rw [branchOf.eq_def] at he
  split at he
  · exact absurd he List.not_mem_nil
  · rename_i fields
    split at he
    · exact absurd he List.not_mem_nil
    · rename_i entries hentries
      have hsize := Value.sizeOf_orNull_field?_lt fields "actions"
      rw [hentries, Value.map.sizeOf_spec] at hsize
      exact Or.inr ⟨entries, by omega, he⟩
    · exact Or.inl (preliminary_defect he)
  · exact Or.inl (preliminary_defect he)

theorem casesOf_metWithin (name : String) (entries : List (Value × Value)) :
    ∀ e ∈ (casesOf name entries).2, e.MetWithin (sizeOf entries) := by
  induction entries with
  | nil => simp [casesOf]
  | cons entry rest ih =>
    obtain ⟨key, branch⟩ := entry
    have hbranch : sizeOf branch ≤ sizeOf ((key, branch) :: rest) := by
      simp only [List.cons.sizeOf_spec, Prod.mk.sizeOf_spec]
      omega
    have hrest : sizeOf rest ≤ sizeOf ((key, branch) :: rest) := by
      rw [List.cons.sizeOf_spec]
      omega
    intro e he
    simp only [casesOf, List.mem_append] at he
    rcases he with (he | he) | he
    · exact Or.inl (preliminary_nameEvents key e he)
    · exact (branchOf_metWithin name _ branch e he).mono hbranch
    · exact (ih e he).mono hrest

/-- What is met in reading an action is met in reading what is inside its description. -/
theorem ofValue_metWithin (name : String) (raw : Value) :
    ∀ e ∈ (ofValue name raw).2, e.MetWithin (sizeOf raw) := by
  intro e he
  rw [ofValue.eq_def] at he
  split at he
  · rename_i fields
    have hrunAfter : e ∈ (runAfterOf name fields).2 → e.MetWithin (sizeOf (Value.map fields)) :=
      fun he => Or.inl (preliminary_runAfterOf name fields e he)
    have hbody := branchOf_metWithin name .action (.map fields) e
    have hfield : ∀ (part : Part) (field : String),
        e ∈ (branchOf name part (Value.orNull (Value.field? fields field))).2 →
        e.MetWithin (sizeOf (Value.map fields)) := fun part field he =>
      (branchOf_metWithin name part _ e he).mono
        (Nat.le_of_lt (Value.sizeOf_orNull_field?_lt fields field))
    dsimp only at he
    -- the kinds in the order in which the reader asks for them
    split at he
    · simp only [List.mem_append] at he
      rcases he with (he | he) | he
      · exact hrunAfter he
      · exact hbody he
      · exact hfield .otherwise "else" he
    · split at he
      · simp only [List.mem_append] at he
        rcases he with ((he | he) | he) | he
        · exact hrunAfter he
        · exact hbody he
        · split at he
          · exact absurd he List.not_mem_nil
          · rename_i entries hentries
            have hsize := Value.sizeOf_orNull_field?_lt fields "cases"
            rw [hentries, Value.map.sizeOf_spec] at hsize
            exact (casesOf_metWithin name entries e he).mono (by omega)
          · exact Or.inl (preliminary_defect he)
        · exact hfield .default "default" he
      · split at he
        · exact (List.mem_append.mp he).elim hrunAfter hbody
        · exact (List.mem_append.mp he).elim hrunAfter hbody
  · exact Or.inl (preliminary_defect he)

end Action

/-- Reading meets nothing else. -/
theorem preliminary_ofEntries (entries : List (Value × Value)) :
    ∀ e ∈ (Action.ofEntries entries).2, e.IsPreliminary := by
  intro e he
  match entries with
  | [] => simp [Action.ofEntries] at he
  | (key, raw) :: rest =>
    simp only [Action.ofEntries, List.mem_append] at he
    rcases he with (he | he) | he
    · exact Action.preliminary_nameEvents key e he
    · rcases Action.ofValue_metWithin _ raw e he with h | ⟨inner, hinner, he⟩
      · exact h
      · exact preliminary_ofEntries inner e he
    · exact preliminary_ofEntries rest e he
termination_by sizeOf entries
decreasing_by
  · simp only [List.cons.sizeOf_spec, Prod.mk.sizeOf_spec]
    omega
  · simp only [List.cons.sizeOf_spec, Prod.mk.sizeOf_spec]
    omega

/-- Indexing reports nothing but names that are declared again. -/
theorem Index.eq_duplicateName_of_mem (index : Index) (ds : List Declaration) :
    ∀ r ∈ (index.addAll ds).2, ∃ name previous, r = .duplicateName name previous := by
  induction ds generalizing index with
  | nil => exact fun r hr => absurd hr List.not_mem_nil
  | cons d rest ih =>
    intro r hr
    rw [Index.addAll] at hr
    rcases List.mem_append.mp hr with hr | hr
    · simp only [Index.add, Option.mem_toList, Option.map_eq_some_iff] at hr
      obtain ⟨previous, -, rfl⟩ := hr
      exact ⟨d.name, previous.path, rfl⟩
    · exact ih _ r hr

theorem Index.preliminary_addAll (index : Index) (ds : List Declaration) :
    ∀ r ∈ (index.addAll ds).2, (Event.report r).IsPreliminary := by
  intro r hr
  obtain ⟨name, previous, rfl⟩ := index.eq_duplicateName_of_mem ds r hr
  trivial

end Flowchart
