import Flowchart.Proofs.Overrides

/-!
# Style files that are refused

A style file is refused at the first kind that offends, with an error that names the kind. There is
one exception: the message about keys that are no fields shows them in order, and keys of different
types have none.

* `Offends` lists what is wrong with a kind and what it is given, and `accepts_iff` says that
  nothing else is, numbers apart that are too long to be written;
* `StyleTable.Sortable` keys can be compared with one another. `incomparable?_eq_none_iff`: this is
  what the search through neighbours finds out;
* `mergeKind_eq_error` tells what an error is like, and `merge_refuses` puts this together for a
  whole style file.
-/

namespace Flowchart

/-! ## Offences -/

/-- What is wrong with a kind and what it is given. -/
inductive Offends : Value → Value → Prop
  | kind {key spec : Value} (h : ∀ kind, key = .str kind → kind = "") : Offends key spec
  | fields {key spec : Value} (h : ∀ fields, spec ≠ .map fields) : Offends key spec
  | unknown {key k v : Value} {fields : List (Value × Value)} (hmem : (k, v) ∈ fields)
      (h : ∀ f : StyleField, k ≠ .str f.key) : Offends key (.map fields)
  | value {key k v : Value} {fields : List (Value × Value)} (hmem : (k, v) ∈ fields)
      (h : ¬v.isTextual ∨ v.isBlankText) : Offends key (.map fields)
  | shape {key : Value} {fields : List (Value × Value)} {text : String}
      (hgiven : StyleField.given? fields .shape = some text)
      (h : Shape.ofName text ∉ Shape.supported) : Offends key (.map fields)

/-- Some field is given a number with too many digits, alone or in a collection. -/
def Overlong (spec : Value) : Prop :=
  ∃ fields, spec = .map fields ∧ ∃ e ∈ fields, ¬e.2.isWritable

namespace StyleTable

variable {t t' : StyleTable} {kind : String} {fields : List (Value × Value)} {key spec : Value}

/-- All shapes in the table can be drawn. -/
def Supported (t : StyleTable) : Prop := ∀ e ∈ t, e.2.shape ∈ Shape.supported

theorem supported_builtIn : Supported Style.builtIn := by
  unfold Supported
  decide

/-- An inherited shape can be drawn, whether it comes from the table or not. -/
theorem Supported.shape_inherited (h : t.Supported) (kind : String) :
    (t.inherited kind).shape ∈ Shape.supported := by
  rw [inherited]
  cases hknown : Style.known? t kind with
  | none => exact List.mem_cons_of_mem _ List.mem_cons_self
  | some s =>
    exact (List.mem_append.mp (mem_of_known? hknown)).elim (h _) (supported_builtIn _)

theorem Supported.override (h : t.Supported) (haccepts : t.Accepts kind fields) :
    (t.override kind fields).Supported := by
  rintro ⟨k, s⟩ he
  rcases Table.mem_put he with he | ⟨-, rfl⟩
  · exact h _ he
  · exact haccepts.supported

/-- The shape of a style with its fields given is drawn unless one is given that cannot be. -/
theorem shape_updated_iff {s : Style} (hs : s.shape ∈ Shape.supported) :
    (s.updated fields).shape ∈ Shape.supported ↔
      ∀ text, StyleField.given? fields .shape = some text →
        Shape.ofName text ∈ Shape.supported := by
  cases hgiven : StyleField.given? fields .shape with
  | none => simp [Style.updated, hgiven, hs]
  | some text => simp [Style.updated, hgiven]

/-- A kind is accepted if it does not offend, and its numbers are short enough. -/
theorem accepts_iff (ht : t.Supported) :
    (∃ kind fields, key = .str kind ∧ spec = .map fields ∧ t.Accepts kind fields) ↔
      ¬(Offends key spec ∨ Overlong spec) := by
  constructor
  · rintro ⟨kind, fields, rfl, rfl, hnamed, hknown, hfits, hsupported⟩ (hoffends | hlong)
    · cases hoffends with
      | kind h => exact hnamed (h kind rfl)
      | fields h => exact h fields rfl
      | unknown hmem h =>
        obtain ⟨f, hf⟩ := hknown _ hmem
        exact h f hf
      | value hmem h =>
        obtain ⟨htextual, -, hvisible⟩ := hfits _ hmem
        exact h.elim (fun h => h htextual) hvisible
      | shape hgiven h =>
        exact h ((shape_updated_iff (ht.shape_inherited kind)).mp hsupported _ hgiven)
    · obtain ⟨fields', heq, e, he, hlong⟩ := hlong
      cases heq
      exact hlong (hfits e he).writable
  · intro h
    obtain ⟨hoffends, hlong⟩ := not_or.mp h
    obtain ⟨kind, rfl, hnamed⟩ : ∃ kind, key = .str kind ∧ kind ≠ "" := by
      by_contra hkey
      exact hoffends (.kind fun kind heq => by_contra fun hne => hkey ⟨kind, heq, hne⟩)
    obtain ⟨fields, rfl⟩ : ∃ fields, spec = .map fields := by
      by_contra hfields
      exact hoffends (.fields (not_exists.mp hfields))
    refine ⟨kind, fields, rfl, rfl, hnamed, ?_, ?_, ?_⟩
    · rintro ⟨k, v⟩ hmem
      by_contra hunknown
      exact hoffends (.unknown hmem (not_exists.mp hunknown))
    · rintro ⟨k, v⟩ hmem
      refine ⟨by_contra fun h => ?_, by_contra fun h => ?_, fun h => ?_⟩
      · exact hoffends (.value hmem (.inl h))
      · exact hlong ⟨fields, rfl, _, hmem, h⟩
      · exact hoffends (.value hmem (.inr h))
    · rw [shape_updated_iff (ht.shape_inherited kind)]
      intro text hgiven
      by_contra hshape
      exact hoffends (.shape hgiven hshape)

/-! ## Keys in order -/

/-- What keys are compared as. -/
inductive KeySort where
  | number
  | text
  | bytes
  | day
  | time (zoned : Bool)

/-- Keys of one sort can be compared; the others with nothing, not even with themselves. -/
def sort? : Value → Option KeySort
  | .bool _ | .int _ | .float _ => some .number
  | .str _ => some .text
  | .bytes _ => some .bytes
  | .date _ => some .day
  | .timestamp t => some (.time t.offset.isSome)
  | .null | .list _ | .map _ | .set _ | .pair _ _ => none

theorem keyBefore?_isSome_iff {v w : Value} :
    (keyBefore? v w).isSome ↔ ∃ sort, sort? v = some sort ∧ sort? w = some sort := by
  cases v <;> cases w
  case timestamp.timestamp => simpa [keyBefore?, sort?, Value.magnitude?] using eq_comm
  all_goals simp [keyBefore?, sort?, Value.magnitude?]

/-- Keys that can be put in order. -/
def Sortable (keys : List Value) : Prop := keys.Pairwise fun v w => (keyBefore? v w).isSome

/-- Neighbours that can be compared are enough. -/
theorem incomparable?_eq_none_iff {keys : List Value} :
    incomparable? keys = none ↔ Sortable keys := by
  simp only [Sortable, keyBefore?_isSome_iff]
  induction keys with
  | nil => simp [incomparable?]
  | cons v rest ih =>
    cases rest with
    | nil => simp [incomparable?]
    | cons w rest =>
      rw [incomparable?, List.pairwise_cons, ← ih]
      by_cases hwv : (keyBefore? w v).isSome
      · -- what can be compared with the neighbour is of its sort
        obtain ⟨sort, hw, hv⟩ := keyBefore?_isSome_iff.mp hwv
        rw [if_neg (by simpa [Option.isSome_iff_ne_none] using hwv)]
        refine ⟨fun h => ⟨fun u hu => ?_, h⟩, And.right⟩
        rcases List.mem_cons.mp hu with rfl | hu
        · exact ⟨sort, hv, hw⟩
        · obtain ⟨sort', hw', hu'⟩ := (List.pairwise_cons.mp (ih.mp h)).1 u hu
          exact ⟨sort', hv.trans (hw.symm.trans hw'), hu'⟩
      · rw [if_pos (by simpa using hwv)]
        refine iff_of_false (fun h => nomatch h) fun ⟨h, _⟩ => hwv ?_
        obtain ⟨sort, hv, hw⟩ := h w List.mem_cons_self
        exact keyBefore?_isSome_iff.mpr ⟨sort, hw, hv⟩

end StyleTable

/-! ## Errors -/

namespace StyleError

/-- The error of a comparison, and none of a style file. -/
def isComparison : StyleError → Bool
  | unorderedKeys _ _ => true
  | _ => false

/-- The message shows a value. -/
def Names (e : StyleError) (v : Value) : Prop :=
  ∃ before after, e.message = before ++ v.literal ++ after

/-- What an error is about. -/
def subject? : StyleError → Option Value
  | invalidKind found => some found
  | invalidFields kind _ | unknownKeys kind _ | invalidValue kind _ _ | blankValue kind _
  | unsupportedShape kind _ => some (.str kind)
  | unorderedKeys _ _ | limit _ => none

/-- A message shows what the error is about. -/
theorem names_of_subject? {e : StyleError} {v : Value} (h : e.subject? = some v) : e.Names v := by
  -- the messages about a kind start in the same way
  have hmore : ∀ {first s more : String}, (∃ after, s = first ++ after) →
      ∃ after, s ++ more = first ++ after := by
    rintro first _ more ⟨after, rfl⟩
    exact ⟨after ++ more, String.append_assoc⟩
  have hstart : ∀ {first more : String}, ∃ after, first ++ more = first ++ after :=
    ⟨_, rfl⟩
  have hkind : ∀ {kind}, (∃ after, e.message = "style for " ++ Text.quoted kind ++ after) →
      e.Names (.str kind) := fun ⟨after, h⟩ => ⟨_, after, h⟩
  cases e with
  | unorderedKeys _ _ | limit _ => cases h
  | invalidKind found =>
    cases h
    exact ⟨_, "", String.append_empty.symm⟩
  | invalidFields kind found =>
    cases h
    exact hkind (hmore hstart)
  | unknownKeys kind keys =>
    cases h
    exact hkind (hmore hstart)
  | invalidValue kind field found =>
    cases h
    exact hkind (hmore (hmore (hmore (hmore hstart))))
  | blankValue kind field =>
    cases h
    exact hkind (hmore (hmore hstart))
  | unsupportedShape kind shape =>
    cases h
    exact hkind (hmore (hmore (hmore (hmore hstart))))

/-- An error about an entry of a style file: it names the kind, unless some number is too long for a
message. -/
structure IsAbout (e : StyleError) (key spec : Value) : Prop where
  notComparison : ¬e.isComparison
  names : key.isWritable → spec.isWritable → e.Names key

variable {e : StyleError} {key spec : Value}

theorem isAbout_of_subject? (h : e.subject? = some key) : e.IsAbout key spec := by
  refine ⟨?_, fun _ _ => names_of_subject? h⟩
  cases e with
  | unorderedKeys _ _ => cases h
  | _ => exact Bool.false_ne_true

/-- What is told is about the entry as well if it shows parts of the entry only. -/
theorem isAbout_told (h : e.subject? = some key)
    (hshown : key.isWritable → spec.isWritable → ∀ v ∈ e.shown, v.isWritable) :
    e.told.IsAbout key spec := by
  rw [told]
  split
  · exact isAbout_of_subject? h
  · rename_i hlong
    refine ⟨Bool.false_ne_true, fun hkey hspec => ?_⟩
    exact absurd (List.all_eq_true.mpr (hshown hkey hspec)) hlong

end StyleError

namespace StyleTable

variable {t t' : StyleTable} {kind : String} {fields : List (Value × Value)} {key spec : Value}
  {err : StyleError}

theorem isWritable_of_mem {e : Value × Value} (h : (Value.map fields).isWritable)
    (he : e ∈ fields) : e.1.isWritable ∧ e.2.isWritable := by
  induction fields with
  | nil => cases he
  | cons first rest ih =>
    have hcons : (Value.map (first :: rest)).isWritable =
        (first.1.isWritable && first.2.isWritable && (Value.map rest).isWritable) := rfl
    rw [hcons, Bool.and_eq_true, Bool.and_eq_true] at h
    rcases List.mem_cons.mp he with rfl | he
    · exact h.1
    · exact ih h.2 he

/-- A value that no text is taken from is shown. -/
theorem isAbout_of_fieldText {f : StyleField} {v : Value} (h : fieldText kind f v = .error err)
    (hspec : spec.isWritable → v.isWritable) : err.IsAbout (.str kind) spec := by
  cases v with
  | str s => cases h
  | int n | float x =>
    rw [fieldText] at h
    split at h
    · cases h
    · rename_i hlong
      cases h
      exact ⟨Bool.false_ne_true, fun _ h => absurd (hspec h) hlong⟩
  | _ =>
    cases h
    exact StyleError.isAbout_told rfl fun _ h => List.forall_mem_singleton.mpr (hspec h)

theorem isAbout_of_setFields {s : Style} (hknown : Known fields)
    (hspec : spec.isWritable → ∀ e ∈ fields, e.2.isWritable)
    (h : setFields kind s fields = .error err) : err.IsAbout (.str kind) spec := by
  induction fields generalizing s with
  | nil => cases h
  | cons e rest ih =>
    obtain ⟨⟨f, hkey⟩, hrest⟩ := List.forall_mem_cons.mp hknown
    obtain ⟨k, v⟩ := e
    obtain rfl : k = .str f.key := hkey
    rw [setFields_cons] at h
    cases htext : fieldText kind f v with
    | error e =>
      rw [htext] at h
      cases h
      exact isAbout_of_fieldText htext fun h => hspec h _ List.mem_cons_self
    | ok text =>
      rw [htext, Except.bind] at h
      split at h
      · cases h
        exact StyleError.isAbout_of_subject? rfl
      · exact ih hrest (fun h e he => hspec h e (List.mem_cons_of_mem _ he)) h

/-- The keys given for a kind that are no fields have no order. -/
def Jumbled (key spec : Value) : Prop :=
  ∃ kind fields, key = .str kind ∧ kind ≠ "" ∧ spec = .map fields ∧ ¬Sortable (unknownKeys fields)

/-- The error for keys that are no fields is about their kind, if they have an order. -/
theorem isAbout_of_unknownKeys (h : Sortable (unknownKeys fields)) :
    (unknownKeysError kind (unknownKeys fields)).told.IsAbout (.str kind) (.map fields) := by
  rw [unknownKeysError, incomparable?_eq_none_iff.mpr h]
  refine StyleError.isAbout_told rfl fun _ hspec v hv => ?_
  rw [StyleError.shown, List.mem_mergeSort, unknownKeys, List.mem_filter, List.mem_map] at hv
  obtain ⟨⟨e, he, rfl⟩, -⟩ := hv
  exact (isWritable_of_mem hspec he).1

/-- The error of a kind is about it, unless keys without an order are compared. -/
theorem mergeKind_eq_error (h : t.mergeKind key spec = .error err) :
    (¬Jumbled key spec ∧ err.IsAbout key spec) ∨ (Jumbled key spec ∧ err.isComparison) := by
  by_cases hjumbled : Jumbled key spec
  · obtain ⟨kind, fields, rfl, hkind, rfl, hsort⟩ := hjumbled
    refine .inr ⟨⟨kind, fields, rfl, hkind, rfl, hsort⟩, ?_⟩
    rw [← incomparable?_eq_none_iff] at hsort
    obtain ⟨⟨earlier, later⟩, hfound⟩ := Option.ne_none_iff_exists'.mp hsort
    have hunknown : unknownKeys fields ≠ [] := by
      intro hnil
      rw [hnil] at hfound
      cases hfound
    rw [mergeKind_map hkind, if_pos hunknown, unknownKeysError, hfound] at h
    cases h
    rfl
  · refine .inl ⟨hjumbled, ?_⟩
    by_cases hkey : ∃ kind, key = .str kind
    · obtain ⟨kind, rfl⟩ := hkey
      by_cases hkind : kind = ""
      · rw [hkind, mergeKind_empty] at h
        cases h
        exact StyleError.isAbout_of_subject? (congrArg (fun s => some (Value.str s)) hkind.symm)
      · by_cases hfields : ∃ fields, spec = .map fields
        · obtain ⟨fields, rfl⟩ := hfields
          rw [mergeKind_map hkind] at h
          by_cases hunknown : unknownKeys fields = []
          · rw [if_neg (not_not_intro hunknown)] at h
            cases hstyle : setFields kind (t.inherited kind) fields with
            | error e =>
              rw [hstyle] at h
              cases h
              exact isAbout_of_setFields (unknownKeys_eq_nil_iff.mp hunknown)
                (fun hspec e he => (isWritable_of_mem hspec he).2) hstyle
            | ok style =>
              rw [hstyle, Except.bind] at h
              split at h
              · cases h
              · cases h
                exact StyleError.isAbout_of_subject? rfl
          · rw [if_pos hunknown] at h
            cases h
            refine isAbout_of_unknownKeys (by_contra fun hsort => hjumbled ?_)
            exact ⟨kind, fields, rfl, hkind, rfl, hsort⟩
        · rw [mergeKind_of_ne_map hkind (not_exists.mp hfields)] at h
          cases h
          exact StyleError.isAbout_of_subject? rfl
    · rw [mergeKind_of_ne_str (not_exists.mp hkey)] at h
      cases h
      exact StyleError.isAbout_told rfl fun h _ => List.forall_mem_singleton.mpr h

/-! ## Style files -/

/-- Entries that do not offend are merged, with shapes that can be drawn. -/
theorem merge_of_forall (ht : t.Supported) {raw : List (Value × Value)} (hraw : IsStyleFile raw)
    (h : ∀ e ∈ raw, ¬(Offends e.1 e.2 ∨ Overlong e.2)) :
    ∃ t', t.merge raw = .ok t' ∧ t'.Supported := by
  induction raw generalizing t with
  | nil => exact ⟨t, rfl, ht⟩
  | cons e rest ih =>
    obtain ⟨key, spec⟩ := e
    obtain ⟨hfirst, hrest⟩ := List.forall_mem_cons.mp h
    obtain ⟨kind, fields, rfl, rfl, haccepts⟩ := (accepts_iff ht).mpr hfirst
    obtain ⟨t', hmerge, ht'⟩ := ih (ht.override haccepts) hraw.tail hrest
    refine ⟨t', ?_, ht'⟩
    exact (merge_cons_eq_ok_iff (hraw.fields _ List.mem_cons_self)).mpr
      ⟨kind, fields, rfl, rfl, haccepts, hmerge⟩

/-- Nothing that is merged offends. -/
theorem forall_of_merge (ht : t.Supported) {raw : List (Value × Value)} (hraw : IsStyleFile raw)
    (h : t.merge raw = .ok t') : ∀ e ∈ raw, ¬(Offends e.1 e.2 ∨ Overlong e.2) := by
  induction raw generalizing t with
  | nil => exact List.forall_mem_nil _
  | cons e rest ih =>
    obtain ⟨key, spec⟩ := e
    obtain ⟨kind, fields, rfl, rfl, haccepts, hrest⟩ :=
      (merge_cons_eq_ok_iff (hraw.fields _ List.mem_cons_self)).mp h
    exact List.forall_mem_cons.mpr ⟨(accepts_iff ht).mp ⟨kind, fields, rfl, rfl, haccepts⟩,
      ih (ht.override haccepts) hraw.tail hrest⟩

/-- An entry that offends stops the merge, whatever follows. -/
theorem mergeKind_of_offends (ht : t.Supported)
    (hspec : ∀ fields, spec = .map fields → IsMapping fields)
    (h : Offends key spec ∨ Overlong spec) : ∃ err, t.mergeKind key spec = .error err := by
  cases hkind : t.mergeKind key spec with
  | error err => exact ⟨err, rfl⟩
  | ok t' =>
    obtain ⟨kind, fields, hkey, hfields, haccepts, -⟩ := (mergeKind_eq_ok_iff hspec).mp hkind
    exact absurd h ((accepts_iff ht).mp ⟨kind, fields, hkey, hfields, haccepts⟩)

/-- The first entry that offends gives the error. -/
theorem merge_of_first (ht : t.Supported) {before after : List (Value × Value)}
    (hraw : IsStyleFile (before ++ (key, spec) :: after))
    (hbefore : ∀ e ∈ before, ¬(Offends e.1 e.2 ∨ Overlong e.2))
    (h : Offends key spec ∨ Overlong spec) :
    ∃ err, t.merge (before ++ (key, spec) :: after) = .error err ∧
      (err.IsAbout key spec ↔ ¬Jumbled key spec) ∧ (err.isComparison ↔ Jumbled key spec) := by
  obtain ⟨next, hnext, hsupported⟩ :=
    merge_of_forall ht (hraw.sublist (List.sublist_append_left _ _)) hbefore
  obtain ⟨err, herr⟩ := mergeKind_of_offends hsupported
    (hraw.fields (key, spec) (List.mem_append_right _ List.mem_cons_self)) h
  refine ⟨err, ?_, ?_⟩
  · have hcons : (Except.ok next >>= fun next => next.merge ((key, spec) :: after)) =
        next.mergeKind key spec >>= fun t => t.merge after := merge_cons next key spec after
    rw [merge_append, hnext, hcons, herr]
    rfl
  · rcases mergeKind_eq_error herr with ⟨hjumbled, habout⟩ | ⟨hjumbled, hcomparison⟩
    · exact ⟨iff_of_true habout hjumbled, iff_of_false habout.notComparison hjumbled⟩
    · exact ⟨iff_of_false (fun habout => habout.notComparison hcomparison) (not_not_intro hjumbled),
        iff_of_true hcomparison hjumbled⟩

/-- When a style file is refused and why, for every table of shapes that can be drawn and every
file.

* It is refused just if some kind offends, or is given a number with too many digits.
* The error comes from the first such kind. It is an error about this kind if and only if the keys
  that are no fields have an order; else it is one of a comparison. -/
theorem merge_refuses {base : StyleTable} (hbase : base.Supported) {raw : List (Value × Value)}
    (hraw : IsStyleFile raw) :
    ((∃ err, base.merge raw = .error err) ↔ ∃ e ∈ raw, Offends e.1 e.2 ∨ Overlong e.2) ∧
    ∀ before key spec after, raw = before ++ (key, spec) :: after →
      (∀ e ∈ before, ¬(Offends e.1 e.2 ∨ Overlong e.2)) → Offends key spec ∨ Overlong spec →
      ∃ err, base.merge raw = .error err ∧
        (err.IsAbout key spec ↔ ¬Jumbled key spec) ∧ (err.isComparison ↔ Jumbled key spec) := by
  refine ⟨?_, ?_⟩
  · cases hmerge : base.merge raw with
    | ok t' =>
      have hnone := forall_of_merge hbase hraw hmerge
      exact iff_of_false (fun ⟨_, h⟩ => nomatch h) fun ⟨e, he, h⟩ => hnone e he h
    | error err =>
      refine iff_of_true ⟨err, rfl⟩ (by_contra fun hnone => ?_)
      obtain ⟨t', hok, -⟩ := merge_of_forall hbase hraw fun e he h => hnone ⟨e, he, h⟩
      rw [hmerge] at hok
      cases hok
  · rintro before key spec after rfl hbefore h
    exact merge_of_first hbase hraw hbefore h

/-- A style file that asks for an outline that the diagram has but a style cannot. -/
def roundFile : List (Value × Value) :=
  [(.str "If", .map [(.str "fill", .str "#111111")]),
    (.str "Scope", .map [(.str "shape", .str "circle")])]

theorem merge_refuses_roundFile :
    Supported Style.builtIn ∧ IsStyleFile roundFile ∧
    ∃ err, Style.builtIn.merge roundFile = .error err ∧
      err.IsAbout (.str "Scope") (.map [(.str "shape", .str "circle")]) := by
  have hfile : IsStyleFile roundFile := by
    refine ⟨by decide, ?_⟩
    simp only [roundFile, List.forall_mem_cons, Value.map.injEq, forall_eq']
    exact ⟨by decide, by decide, List.forall_mem_nil _⟩
  have hfirst : ∀ e ∈ [(Value.str "If", Value.map [(.str "fill", .str "#111111")])],
      ¬(Offends e.1 e.2 ∨ Overlong e.2) := by
    refine forall_of_merge supported_builtIn ?_ rfl
    exact hfile.sublist (List.sublist_append_left _ [_])
  have hshape : Offends (.str "Scope") (.map [(.str "shape", .str "circle")]) :=
    .shape rfl (by decide : Shape.ofName "circle" ∉ Shape.supported)
  obtain ⟨err, herr, habout, -⟩ :=
    (merge_refuses supported_builtIn hfile).2 [_] _ _ [] rfl hfirst (.inl hshape)
  refine ⟨supported_builtIn, hfile, err, herr, habout.mpr ?_⟩
  rintro ⟨kind, fields, -, -, heq, hsort⟩
  cases heq
  exact hsort .nil

/-- Ten in the morning on a day, in universal time if so said. -/
def tenOClock (zoned : Bool) : Value :=
  .timestamp ⟨⟨2024, 1, 1⟩, 10, 0, 0, 0, if zoned then some 0 else none⟩

/-- The fields of a kind, with two times for keys. -/
def timeFields : List (Value × Value) :=
  [(tenOClock false, .str "#FFFFFF"), (tenOClock true, .str "#000000")]

/-- A kind with two unknown keys offends. They cannot be compared, and the error names no kind. -/
theorem merge_timeFields :
    Offends (.str "Compose") (.map timeFields) ∧
    ∃ err, StyleTable.merge [] [(.str "Compose", .map timeFields)] = .error err ∧
      err.isComparison ∧ err.message = "can't compare offset-naive and offset-aware datetimes" := by
  refine ⟨.unknown (k := tenOClock false) List.mem_cons_self (fun f h => nomatch h), ?_⟩
  exact ⟨.unorderedKeys (tenOClock true) (tenOClock false), rfl, rfl, rfl⟩

end StyleTable

end Flowchart
