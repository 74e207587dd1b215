import Flowchart.Proofs.Descriptions
import Flowchart.Proofs.Palette

/-!
# What a style file does

`StyleTable.merge` goes through the kinds of a style file and the fields of each kind, and stops at
the first thing it does not accept. Here is what it does when it accepts everything.

* `IsStyleFile` says that no map in a style file has a key twice, as none has that was read;
* `Style.updated` is a style with the fields that are given, and `StyleTable.Accepts` says when a
  kind is accepted: `mergeKind_eq_ok_iff` gives the table that results;
* `StyleTable.Overridden` describes the table after a whole style file, kind by kind:
  `overridden_of_merge`.
-/

namespace Flowchart

/-! ## Keys -/

namespace Value

/-- The only key that is the same as a text is that text. -/
theorem str_beq_iff {s : String} {v : Value} : (Value.str s == v) = true ↔ v = .str s := by
  constructor
  · intro h
    cases v with
    | str t =>
      rw [str_beq_str, beq_iff_eq] at h
      rw [h]
    | _ => cases h
  · rintro rfl
    rw [str_beq_str, beq_self_eq_true]

theorem beq_str_iff {s : String} {v : Value} : (v == Value.str s) = true ↔ v = .str s := by
  constructor
  · intro h
    cases v with
    | str t =>
      rw [str_beq_str, beq_iff_eq] at h
      rw [h]
    | _ => cases h
  · rintro rfl
    rw [str_beq_str, beq_self_eq_true]

/-- The values that a field takes its text from: texts and numbers, but no truth values. -/
def isTextual : Value → Bool
  | str _ | int _ | float _ => true
  | _ => false

/-- Whether nothing can be seen of the text of a value. -/
def isBlankText (v : Value) : Bool := v.text.toList.all Text.isBlank

/-- The values that a field can have. -/
structure Fits (v : Value) : Prop where
  textual : v.isTextual
  writable : v.isWritable
  visible : ¬v.isBlankText

end Value

theorem StyleField.ofKey?_eq_some_iff {k : Value} {f : StyleField} :
    ofKey? k = some f ↔ k = .str f.key := by
  constructor
  · intro h
    have hfound := List.find?_some h
    exact Value.str_beq_iff.mp hfound
  · rintro rfl
    cases f
    all_goals rfl

/-- No two entries have the same key. -/
def IsMapping (entries : List (Value × Value)) : Prop :=
  entries.Pairwise fun e e' => ¬(e.1 == e'.1)

instance : DecidablePred IsMapping :=
  fun entries => inferInstanceAs (Decidable (entries.Pairwise fun e e' => ¬(e.1 == e'.1)))

/-- Neither the kinds nor the fields of a kind have a key twice. -/
structure IsStyleFile (raw : List (Value × Value)) : Prop where
  kinds : IsMapping raw
  fields : ∀ e ∈ raw, ∀ fields, e.2 = .map fields → IsMapping fields

theorem IsStyleFile.sublist {raw part : List (Value × Value)} (h : IsStyleFile raw)
    (hpart : part.Sublist raw) : IsStyleFile part where
  kinds := h.kinds.sublist hpart
  fields e he := h.fields e (hpart.subset he)

theorem IsStyleFile.tail {e : Value × Value} {raw : List (Value × Value)}
    (h : IsStyleFile (e :: raw)) : IsStyleFile raw :=
  h.sublist (List.sublist_cons_self e raw)

/-- A text that is the first key is no other one. -/
theorem IsMapping.field?_eq_none {s : String} {v : Value} {rest : List (Value × Value)}
    (h : IsMapping ((.str s, v) :: rest)) : Value.field? rest s = none := by
  rw [Value.field?, List.lookup_eq_none_iff]
  intro e he
  rw [bne, Bool.not_eq_true', ← Bool.not_eq_true]
  exact (List.pairwise_cons.mp h).1 e he

/-! ## Styles with fields given -/

/-- The text given for a field. -/
def StyleField.given? (fields : List (Value × Value)) (f : StyleField) : Option String :=
  (Value.field? fields f.key).map Value.text

/-- A style with the fields that are given. -/
def Style.updated (s : Style) (fields : List (Value × Value)) : Style where
  fill := (StyleField.given? fields .fill).getD s.fill
  stroke := (StyleField.given? fields .stroke).getD s.stroke
  shape := ((StyleField.given? fields .shape).map Shape.ofName).getD s.shape
  className := (StyleField.given? fields .className).getD s.className

@[simp] theorem Style.updated_nil (s : Style) : s.updated [] = s := rfl

theorem StyleField.given?_cons (f f' : StyleField) (v : Value) (rest : List (Value × Value)) :
    given? ((.str f.key, v) :: rest) f' = if f' = f then some v.text else given? rest f' := by
  have hkey : f'.key = f.key ↔ f' = f := by
    cases f <;> cases f' <;> decide
  rw [given?, Value.field?_cons_str]
  simp only [hkey]
  split
  · rfl
  · rfl

/-- A field that is given once can be written first. -/
theorem Style.updated_cons (s : Style) {f : StyleField} {v : Value} {rest : List (Value × Value)}
    (h : f.given? rest = none) :
    s.updated ((.str f.key, v) :: rest) = (f.set v.text s).updated rest := by
  cases f
  all_goals simp [updated, StyleField.given?_cons, StyleField.set, h]

namespace StyleTable

variable {t t' : StyleTable} {kind : String} {s s' : Style} {fields : List (Value × Value)}

/-- A field takes the text of every text and of every number that can be written. -/
theorem fieldText_eq_ok_iff {f : StyleField} {v : Value} {text : String} :
    fieldText kind f v = .ok text ↔ v.isTextual ∧ v.isWritable ∧ text = v.text := by
  cases v with
  | str s =>
    simp [fieldText, Value.isTextual, Value.isWritable, Value.text, pure, Except.pure, eq_comm]
  | int n =>
    by_cases h : (Value.int n).isWritable
    · simp [fieldText, Value.isTextual, h, pure, Except.pure, eq_comm]
    · simp [fieldText, h, throw, throwThe, MonadExceptOf.throw]
  | float x => simp [fieldText, Value.isTextual, Value.isWritable, pure, Except.pure, eq_comm]
  | _ => simp [fieldText, Value.isTextual, throw, throwThe, MonadExceptOf.throw]

/-- One field is checked and written before the next one is looked at. -/
theorem setFields_cons (f : StyleField) (v : Value) (rest : List (Value × Value)) :
    setFields kind s ((.str f.key, v) :: rest) =
      (fieldText kind f v).bind fun text =>
        if text.toList.all Text.isBlank then .error (.blankValue kind f)
        else setFields kind (f.set text s) rest := by
  rw [setFields, StyleField.ofKey?_eq_some_iff.mpr rfl]
  show (fieldText kind f v).bind _ = _
  congr 1

/-- The keys are those of fields. -/
def Known (fields : List (Value × Value)) : Prop :=
  ∀ e ∈ fields, ∃ f : StyleField, e.1 = .str f.key

/-- Fields are written if all their values fit. -/
theorem setFields_eq_ok_iff (hmap : IsMapping fields) (hknown : Known fields) :
    setFields kind s fields = .ok s' ↔ (∀ e ∈ fields, e.2.Fits) ∧ s' = s.updated fields := by
  induction fields generalizing s with
  | nil => simp [setFields, pure, Except.pure, eq_comm]
  | cons e rest ih =>
    obtain ⟨⟨f, hkey⟩, hrest⟩ := List.forall_mem_cons.mp hknown
    obtain ⟨k, v⟩ := e
    obtain rfl : k = .str f.key := hkey
    have hgiven : f.given? rest = none := by
      rw [StyleField.given?, hmap.field?_eq_none]
      rfl
    rw [List.forall_mem_cons, Style.updated_cons s hgiven, setFields_cons]
    cases htext : fieldText kind f v with
    | error e =>
      refine iff_of_false (by rintro ⟨⟩) ?_
      rintro ⟨⟨hfits, -⟩, -⟩
      rw [fieldText_eq_ok_iff.mpr ⟨hfits.textual, hfits.writable, rfl⟩] at htext
      cases htext
    | ok text =>
      obtain ⟨htextual, hwritable, rfl⟩ := fieldText_eq_ok_iff.mp htext
      show (if v.isBlankText then _ else _) = _ ↔ _
      by_cases hblank : v.isBlankText
      · rw [if_pos hblank]
        refine iff_of_false (by rintro ⟨⟩) ?_
        rintro ⟨⟨hfits, -⟩, -⟩
        exact hfits.visible hblank
      · have hfits : v.Fits := ⟨htextual, hwritable, hblank⟩
        rw [if_neg hblank, ih (List.pairwise_cons.mp hmap).2 hrest, and_iff_right hfits]

/-! ## Kinds -/

/-- A table with the fields given for a kind. -/
def override (t : StyleTable) (kind : String) (fields : List (Value × Value)) : StyleTable :=
  t.put kind ((t.inherited kind).updated fields)

/-- A kind that is merged: its fields are known and have fitting values, and its shape can be
drawn, whether it is given or inherited. -/
structure Accepts (t : StyleTable) (kind : String) (fields : List (Value × Value)) : Prop where
  named : kind ≠ ""
  known : Known fields
  fits : ∀ e ∈ fields, e.2.Fits
  supported : ((t.inherited kind).updated fields).shape ∈ Shape.supported

/-- The keys that are no fields. -/
def unknownKeys (fields : List (Value × Value)) : List Value :=
  (fields.map Prod.fst).filter fun k => (StyleField.ofKey? k).isNone

theorem unknownKeys_eq_nil_iff : unknownKeys fields = [] ↔ Known fields := by
  simp only [unknownKeys, Known, List.filter_eq_nil_iff, List.forall_mem_map,
    Option.isNone_iff_eq_none, Option.ne_none_iff_exists', StyleField.ofKey?_eq_some_iff]

/-- A kind has to be a text. -/
theorem mergeKind_of_ne_str {key : Value} (h : ∀ kind, key ≠ .str kind) (spec : Value) :
    t.mergeKind key spec = .error (StyleError.invalidKind key).told := by
  rw [mergeKind.eq_def]
  split
  · exact absurd rfl (h _)
  · rfl

theorem mergeKind_empty (spec : Value) :
    t.mergeKind (.str "") spec = .error (.invalidKind (.str "")) := by
  rw [mergeKind.eq_def]
  exact if_pos rfl

/-- A kind has to be given a map. -/
theorem mergeKind_of_ne_map (hkind : kind ≠ "") {spec : Value} (h : ∀ fields, spec ≠ .map fields) :
    t.mergeKind (.str kind) spec = .error (.invalidFields kind spec) := by
  rw [mergeKind.eq_def]
  simp only [if_neg hkind]
  rfl

/-- The fields of a kind are checked stage by stage: their keys, their values, and the shape. -/
theorem mergeKind_map (hkind : kind ≠ "") :
    t.mergeKind (.str kind) (.map fields) =
      if unknownKeys fields ≠ [] then .error (unknownKeysError kind (unknownKeys fields)).told
      else (setFields kind (t.inherited kind) fields).bind fun style =>
        if style.shape ∈ Shape.supported then .ok (t.put kind style)
        else .error (.unsupportedShape kind style.shape) := by
  have hempty : (!(unknownKeys fields).isEmpty) = true ↔ unknownKeys fields ≠ [] := by simp
  rw [mergeKind, if_neg hkind]
  show (if (!(unknownKeys fields).isEmpty) = true then _ else _) = _
  simp only [hempty]
  split
  · rfl
  · show (setFields kind (t.inherited kind) fields).bind _ = _
    congr 1
    funext style
    by_cases hshape : style.shape ∈ Shape.supported
    · rw [if_pos hshape, if_neg (not_not_intro hshape)]
      rfl
    · rw [if_neg hshape, if_pos hshape]
      rfl

/-- What merging one kind gives, if it is accepted. -/
theorem mergeKind_eq_ok_iff {key spec : Value}
    (hspec : ∀ fields, spec = .map fields → IsMapping fields) :
    t.mergeKind key spec = .ok t' ↔ ∃ kind fields, key = .str kind ∧ spec = .map fields ∧
      t.Accepts kind fields ∧ t' = t.override kind fields := by
  constructor
  · intro h
    obtain ⟨kind, rfl⟩ : ∃ kind, key = .str kind := by
      by_contra hkey
      rw [mergeKind_of_ne_str (not_exists.mp hkey)] at h
      cases h
    have hkind : kind ≠ "" := by
      rintro rfl
      rw [mergeKind_empty] at h
      cases h
    obtain ⟨fields, rfl⟩ : ∃ fields, spec = .map fields := by
      by_contra hfields
      rw [mergeKind_of_ne_map hkind (not_exists.mp hfields)] at h
      cases h
    rw [mergeKind_map hkind] at h
    have hunknown : unknownKeys fields = [] := by
      by_contra hunknown
      rw [if_pos hunknown] at h
      cases h
    have hknown := unknownKeys_eq_nil_iff.mp hunknown
    rw [if_neg (not_not_intro hunknown)] at h
    obtain ⟨style, hstyle, h⟩ := exists_of_bind_eq_ok h
    obtain ⟨hfits, rfl⟩ := (setFields_eq_ok_iff (hspec fields rfl) hknown).mp hstyle
    split at h
    · rename_i hshape
      cases h
      exact ⟨kind, fields, rfl, rfl, ⟨hkind, hknown, hfits, hshape⟩, rfl⟩
    · cases h
  · rintro ⟨kind, fields, rfl, rfl, haccepts, rfl⟩
    have hstyle : setFields kind (t.inherited kind) fields =
        .ok ((t.inherited kind).updated fields) :=
      (setFields_eq_ok_iff (hspec fields rfl) haccepts.known).mpr ⟨haccepts.fits, rfl⟩
    have hunknown := unknownKeys_eq_nil_iff.mpr haccepts.known
    rw [mergeKind_map haccepts.named, if_neg (not_not_intro hunknown), hstyle]
    exact if_pos haccepts.supported

/-! ## Style files -/

theorem merge_append (before after : List (Value × Value)) :
    t.merge (before ++ after) = t.merge before >>= fun next => next.merge after :=
  List.foldlM_append ..

/-- The first kind is accepted, and the others are merged after it. -/
theorem merge_cons_eq_ok_iff {key spec : Value} {rest : List (Value × Value)}
    (hspec : ∀ fields, spec = .map fields → IsMapping fields) :
    t.merge ((key, spec) :: rest) = .ok t' ↔ ∃ kind fields, key = .str kind ∧ spec = .map fields ∧
      t.Accepts kind fields ∧ (t.override kind fields).merge rest = .ok t' := by
  rw [merge_cons]
  constructor
  · intro h
    obtain ⟨next, hnext, h⟩ := exists_of_bind_eq_ok h
    obtain ⟨kind, fields, rfl, rfl, haccepts, rfl⟩ := (mergeKind_eq_ok_iff hspec).mp hnext
    exact ⟨kind, fields, rfl, rfl, haccepts, h⟩
  · rintro ⟨kind, fields, rfl, rfl, haccepts, h⟩
    rw [(mergeKind_eq_ok_iff hspec).mpr ⟨kind, fields, rfl, rfl, haccepts, rfl⟩]
    exact h

/-- Each entry of a style file that is accepted names a kind and gives it fields. -/
theorem exists_of_mem_of_merge {raw : List (Value × Value)} (hraw : IsStyleFile raw)
    (h : t.merge raw = .ok t') {e : Value × Value} (he : e ∈ raw) :
    ∃ kind fields, e = (.str kind, .map fields) := by
  induction raw generalizing t with
  | nil => cases he
  | cons first rest ih =>
    obtain ⟨key, spec⟩ := first
    obtain ⟨kind, fields, rfl, rfl, -, hrest⟩ :=
      (merge_cons_eq_ok_iff (hraw.fields _ List.mem_cons_self)).mp h
    rcases List.mem_cons.mp he with rfl | he
    · exact ⟨kind, fields, rfl⟩
    · exact ih hraw.tail hrest he

/-- The kinds in a style file. -/
def kindsOf (raw : List (Value × Value)) : List String :=
  raw.filterMap fun e => match e.1 with
    | .str kind => some kind
    | _ => none

theorem mem_kindsOf {raw : List (Value × Value)} :
    kind ∈ kindsOf raw ↔ ∃ e ∈ raw, e.1 = .str kind := by
  rw [kindsOf, List.mem_filterMap]
  refine exists_congr fun e => and_congr_right fun _ => ?_
  cases e.1 with
  | str k => simp
  | _ => simp

/-- A kind that comes first is not named again. -/
theorem not_mem_kindsOf_tail {spec : Value} {rest : List (Value × Value)}
    (h : IsMapping ((.str kind, spec) :: rest)) : kind ∉ kindsOf rest := by
  rw [mem_kindsOf]
  rintro ⟨e, he, hkey⟩
  exact (List.pairwise_cons.mp h).1 e he (Value.str_beq_iff.mpr hkey)

/-- What a style file does to a table.

* A kind that is not named keeps its override, or has none as before.
* A kind that is named gets the style it had, or else its built-in style, or else the plain style in
  a class of its own name, with the fields that are given.
* The kinds that were there keep their order, and new ones follow in the order of the file. -/
structure Overridden (t : StyleTable) (raw : List (Value × Value)) (t' : StyleTable) : Prop where
  unnamed : ∀ kind ∉ kindsOf raw, t'.lookup kind = t.lookup kind
  named : ∀ kind fields, (.str kind, .map fields) ∈ raw → t'.lookup kind =
    some ((((t.lookup kind).or (Style.builtIn.lookup kind)).getD (Style.plain kind)).updated fields)
  order : t'.keys = t.keys ++ (kindsOf raw).filter (· ∉ t.keys)

theorem lookup_override_of_ne {k : String} (h : k ≠ kind) :
    (t.override kind fields).lookup k = t.lookup k := by
  rw [override, Table.lookup_put, if_neg (by simpa using h)]

theorem lookup_override_self :
    (t.override kind fields).lookup kind = some ((t.inherited kind).updated fields) := by
  rw [override, Table.lookup_put, if_pos (beq_self_eq_true kind)]

theorem overridden_of_merge {raw : List (Value × Value)} (hraw : IsStyleFile raw)
    (h : t.merge raw = .ok t') : t.Overridden raw t' := by
  induction raw generalizing t with
  | nil =>
    cases h
    exact ⟨fun _ _ => rfl, fun _ _ hmem => absurd hmem List.not_mem_nil, (List.append_nil _).symm⟩
  | cons e rest ih =>
    obtain ⟨key, spec⟩ := e
    obtain ⟨kind, fields, rfl, rfl, -, hrest⟩ :=
      (merge_cons_eq_ok_iff (hraw.fields _ List.mem_cons_self)).mp h
    have hnew := not_mem_kindsOf_tail hraw.kinds
    obtain ⟨hunnamed, hnamed, horder⟩ := ih hraw.tail hrest
    have hkinds : kindsOf ((.str kind, .map fields) :: rest) = kind :: kindsOf rest := rfl
    refine ⟨?_, ?_, ?_⟩
    · intro k hk
      rw [hkinds, List.mem_cons, not_or] at hk
      rw [hunnamed k hk.2, lookup_override_of_ne hk.1]
    · intro k given hmem
      rcases List.mem_cons.mp hmem with heq | hmem
      · cases heq
        exact (hunnamed kind hnew).trans lookup_override_self
      · have hk : k ≠ kind := fun hk => hnew (hk ▸ mem_kindsOf.mpr ⟨_, hmem, rfl⟩)
        rw [hnamed k given hmem, lookup_override_of_ne hk]
    · rw [horder, hkinds, override, Table.keys_put]
      by_cases hk : kind ∈ t.keys
      · rw [if_pos (List.contains_iff_mem.mpr hk), List.filter_cons_of_neg (by simpa using hk)]
      · rw [if_neg (mt List.contains_iff_mem.mp hk), List.filter_cons_of_pos (by simpa using hk),
          List.append_assoc]
        refine congrArg (fun kinds => t.keys ++ kind :: kinds) (List.filter_congr fun k hmem => ?_)
        have hne : k ≠ kind := fun h => hnew (h ▸ hmem)
        simp [hne]

end StyleTable

end Flowchart
