import Flowchart.Proofs.Outcomes

/-!
# Labels that halt the work

In a tree of distinct names all actions are drawn, so a label that cannot be read is met.

* `Walks.opening_subset`: a trip draws what opens each of its actions, and `exists_halt_of_label`
  is what follows for the labels among it;
* `labelLimit?_longReference`: a reference of too many digits is such a label;
* `convert_spoiled`: what was wrong with another member has been reported before the work halts.
-/

namespace Flowchart

open Diagram

namespace Diagram

/-! ## Met on the way -/

variable {actions : Actions} {styles : StyleTable} {ts : List Task} {m : Memo} {t : Trip}

/-- What is drawn on the trip is opened on it. -/
theorem Walks.opening_subset (h : Walks actions styles ts m t) {d : Declaration}
    (hd : d ∈ t.drawn) : d.action.opening styles d.name ⊆ t.strokes := by
  induction h with
  | nil m => exact absurd hd List.not_mem_nil
  | wire _ ih | unknown _ _ ih | met _ _ _ ih =>
    rw [Trip.strokes_prepend]
    exact List.subset_append_of_subset_right _ (ih hd)
  | leave _ ih | again _ _ _ ih => exact List.subset_append_of_subset_right _ (ih hd)
  | @fresh d' ts m before inside t _ _ _ _ _ ih₁ ih₂ ih₃ =>
    -- the action itself, or one that was drawn before it, inside it or after it
    intro s hs
    simp only [Trip.strokes_prepend, Trip.drawn_prepend, List.cons_append, List.append_assoc,
      List.mem_append, List.mem_cons] at hd ⊢
    rcases hd with rfl | hd | hd | hd
    · exact Or.inr (Or.inl hs)
    · exact Or.inl (ih₁ hd hs)
    · exact Or.inr (Or.inr (Or.inl (ih₂ hd hs)))
    · exact Or.inr (Or.inr (Or.inr (Or.inr (Or.inr (Or.inr (ih₃ hd hs))))))
  | force _ _ _ _ ih₁ ih₂ =>
    intro s hs
    simp only [Trip.strokes_prepend, Trip.drawn_prepend, List.append_assoc,
      List.mem_append] at hd ⊢
    rcases hd with hd | hd
    · exact Or.inl (ih₁ hd hs)
    · exact Or.inr (Or.inr (ih₂ hd hs))

/-- In a tree of distinct names all actions are drawn, so a label that cannot be read is met. -/
theorem exists_halt_of_label {config : Config} {entries : List (Value × Value)}
    (hdist : (Actions.ofEntries entries).1.Distinct) {d : Declaration}
    (hd : d ∈ (Actions.ofEntries entries).1.declarations) {label : String}
    (hlabel : label ∈ (d.action.opening config.styles d.name).filterMap Stroke.label?)
    {limit : Decimal.LimitError} (hlimit : labelLimit? label = some limit) :
    ∃ limit, (Conversion.ofEntries config entries).halt? = some limit := by
  obtain ⟨t, ht, hhalts⟩ := ofEntries_halts config entries
  obtain ⟨s, hs, hlabel⟩ := List.mem_filterMap.mp hlabel
  have hmet : (t.strokes.findSome? fun s => s.label?.bind labelLimit?) ≠ none := by
    intro hnone
    have hs := List.findSome?_eq_none_iff.mp hnone s
      (ht.walks.opening_subset (ht.walks.mem_drawn hdist d hd) hs)
    rw [hlabel, Option.bind_some, hlimit] at hs
    cases hs
  refine Option.ne_none_iff_exists'.mp fun hnone => hmet ?_
  rw [hhalts, Option.or_eq_none_iff] at hnone
  exact hnone.2

end Diagram

/-! ## References of too many digits -/

/-- A decimal reference of too many digits halts. -/
theorem Text.CharRef.limit?_of_long_digits {digits : List Char} (hdigits : ∀ c ∈ digits, c.isDigit)
    (hlong : Decimal.maxDigits < digits.length) :
    limit? ('&' :: '#' :: digits) = some (.reading digits.length) := by
  have hall : digits.takeWhile Char.isDigit = digits := List.takeWhile_eq_self_iff.mpr hdigits
  rw [limit?]
  simp only [↓reduceIte, hall]
  exact if_pos hlong

namespace Diagram

/-- A character that stays in a name wherever it stands. -/
def isKept (c : Char) : Bool := c != '(' && c != ')' && c != '_' && !Text.isBlank c

/-- A name of such characters is readable as it is. -/
theorem displayName_eq_self {name : List Char} (hne : name ≠ []) (h : name.all isKept) :
    displayName (String.ofList name) = String.ofList name := by
  simp only [isKept, List.all_eq_true, Bool.and_eq_true, Bool.not_eq_true', bne_iff_ne] at h
  have hkept : (name.filter fun c => c != '(' && c != ')') = name :=
    List.filter_eq_self.mpr fun c hc => by simp [h c hc]
  have hspaces : (name.map fun c => if c == '_' then ' ' else c) = name := by
    refine (List.map_congr_left fun c hc => ?_).trans (List.map_id name)
    simp [h c hc]
  have hends : ∀ s : List Char, (∀ c ∈ s, Text.isBlank c = false) →
      s.dropWhile Text.isBlank = s := by
    intro s hs
    cases s with
    | nil => rfl
    | cons c s => exact List.dropWhile_cons_of_neg (by simp [hs c List.mem_cons_self])
  have htrim : Text.trim name = name := by
    rw [Text.trim, hends name fun c hc => (h c hc).2, Text.trimEnd,
      hends name.reverse fun c hc => (h c (List.mem_reverse.mp hc)).2, List.reverse_reverse]
  rw [displayName, String.toList_ofList, hkept, hspaces, htrim]
  cases name with
  | nil => exact absurd rfl hne
  | cons c name => rfl

/-- A decimal reference of so many digits. -/
def longReference (digits : Nat) : List Char := '&' :: '#' :: List.replicate digits '1'

theorem all_longReference {p : Char → Bool} (h : ['&', '#', '1'].all p) (digits : Nat) :
    (longReference digits).all p := by
  simp only [List.all_cons, List.all_nil, Bool.and_eq_true] at h
  simp [longReference, h]

theorem labelLimit?_longReference {digits : Nat} (h : Decimal.maxDigits < digits) :
    labelLimit? (displayName (String.ofList (longReference digits))) = some (.reading digits) := by
  have hne : longReference digits ≠ [] := List.cons_ne_nil _ _
  have hdigits : ∀ c ∈ List.replicate digits '1', c.isDigit := fun c hc => by
    rw [List.eq_of_mem_replicate hc]
    rfl
  have hlength : (List.replicate digits '1').length = digits := List.length_replicate
  have hlimit := Text.CharRef.limit?_of_long_digits hdigits (by rwa [hlength])
  rw [displayName_eq_self hne (all_longReference (by decide) digits), labelLimit?,
    String.toList_ofList, longReference, hlimit, hlength]

end Diagram

/-! ## Two members -/

/-- An object without fields is an action of no kind. -/
theorem Action.ofValue_emptyObject (name : String) :
    ofValue name (.map []) = (some (.simple "" [] []), []) := by
  have hbody : branchOf name .action (.map []) = (none, []) := by
    rw [branchOf]
    rfl
  have hscope : scopeKind? "" = none := by decide
  have hkind : kindOf [] = "" := rfl
  have hrunAfter : runAfterOf name [] = ([], []) := rfl
  rw [ofValue, hbody, hrunAfter, hkind]
  dsimp only
  rw [if_neg (by decide), if_neg (by decide), hscope]
  rfl

theorem Action.ofValue_null (name : String) :
    ofValue name .null = (none, [defect name (.notAnObject "NoneType")]) := by
  rw [ofValue]
  · rfl
  · intro fields h
    cases h

namespace Diagram

/-- The members of a definition: one that is no action, and an action without any fields. -/
def spoiled (name : String) : List (Value × Value) := Json.named [("A", .null), (name, .map [])]

theorem ofEntries_spoiled (name : String) :
    Actions.ofEntries (spoiled name) = ([(name, .simple "" [] [])],
      [Action.defect "A" (.notAnObject "NoneType")]) := by
  have hentries : spoiled name = [(.str "A", .null), (.str name, .map [])] := rfl
  rw [Actions.ofEntries, hentries, Action.ofEntries, Action.ofEntries, Action.ofEntries,
    Action.ofValue_null, Action.ofValue_emptyObject]
  rfl

/-- If the name of the action cannot be read, the work halts there. -/
theorem halt?_spoiled (config : Config) {name : String} {limit : Decimal.LimitError}
    (h : labelLimit? (displayName name) = some limit) :
    (Conversion.ofEntries config (spoiled name)).halt? = some limit := by
  have hdeclarations : (Actions.ofEntries (spoiled name)).1.declarations
      = [⟨name, .simple "" [] [], [], [(name, .simple "" [] [])]⟩] := by
    rw [ofEntries_spoiled]
    rfl
  have hdist : (Actions.ofEntries (spoiled name)).1.Distinct := by
    rw [Actions.Distinct, hdeclarations]
    exact List.nodup_singleton name
  have hname : name ≠ "A" := by
    rintro rfl
    have hreadable : labelLimit? (displayName "A") = none := by decide
    rw [hreadable] at h
    cases h
  have hkeyed : (Value.map (spoiled name)).TextKeyed := by
    refine Value.TextKeyed.map_cons.mpr ⟨.other rfl, ?_, ?_⟩
    · exact fun hmem => hname (List.mem_singleton.mp hmem).symm
    · exact Value.TextKeyed.map_cons.mpr ⟨.map_nil, List.not_mem_nil, .map_nil⟩
  have hhalts : ∃ limit', (Conversion.ofEntries config (spoiled name)).halt? = some limit' :=
    exists_halt_of_label hdist (hdeclarations ▸ List.mem_singleton.mpr rfl)
      (List.mem_singleton.mpr rfl) h
  obtain ⟨limit', hhalt⟩ := hhalts
  -- the tree has no other label to halt at
  obtain ⟨label, hlabel, hlimit⟩ := exists_limit_of_ofEntries hkeyed hhalt
  rw [Actions.labels, hdeclarations] at hlabel
  cases List.mem_singleton.mp hlabel
  rw [hhalt, ← hlimit, h]

/-- Reading comes first, and so does the report of the other member. -/
theorem reports_spoiled (config : Config) (name : String) :
    ∃ more, (Conversion.ofEntries config (spoiled name)).reports
      = .malformedAction "A" (.notAnObject "NoneType") :: more := by
  rw [Conversion.reports, Conversion.ofEntries, ofEntries_spoiled]
  exact ⟨_, rfl⟩

/-- So it has been reported when the work halts at the name of the action. -/
theorem convert_spoiled (config : Config) (log : Log) {name : String} {limit : Decimal.LimitError}
    (h : labelLimit? (displayName name) = some limit) :
    ∃ more, convert config log (definitionOf (spoiled name))
      = (log.recordAll (.malformedAction "A" (.notAnObject "NoneType") :: more),
        .error (.limit limit)) := by
  have hactions : Definition.actions? (definitionOf (spoiled name)) = some (spoiled name) := rfl
  obtain ⟨more, hreports⟩ := reports_spoiled config name
  refine ⟨more, ?_⟩
  simp only [convert, hactions, hreports, halt?_spoiled config h]
  rfl

end Diagram

end Flowchart
