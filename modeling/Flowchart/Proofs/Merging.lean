import Flowchart.Proofs.Entries
import Flowchart.Proofs.Overrides

/-!
# Style files one after another

Two style files that are merged in turn come to the same as one that has the kinds of both, and for
each kind the fields of both. A kind that both name is merged at the place where the first one names
it, so this is about what can be put off: `merge_put` says that a change to one kind can be made
before or after the other kinds are merged.

* `Value.putAll` and `StyleTable.unite` write one file into the other, fields and kinds;
* `updated_putAll` and `merge_uniteKind` do so for the fields of a kind, and for a kind;
* `merge_unite` is the law for two files, with what each of them does to its table, and
  `className_of_foldlM` says how long a class that was named is kept.
-/

namespace Flowchart

/-! ## Writing into a map -/

namespace Value

variable {entries : List (Value × Value)} {k : String} {v : Value}

/-- A text that is no key is written at the end, and one that is a key where it stands first. -/
theorem put_str_cases (entries : List (Value × Value)) (k : String) :
    (field? entries k = none ∧ ∀ v, Table.put entries (.str k) v = entries ++ [(.str k, v)]) ∨
    ∃ before v₀ after, entries = before ++ (.str k, v₀) :: after ∧ field? before k = none ∧
      ∀ v, Table.put entries (.str k) v = before ++ (.str k, v) :: after := by
  induction entries with
  | nil => exact .inl ⟨rfl, fun _ => rfl⟩
  | cons e rest ih =>
    obtain ⟨k', v'⟩ := e
    by_cases hk : (Value.str k == k') = true
    · obtain rfl := str_beq_iff.mp hk
      exact .inr ⟨[], v', rest, rfl, rfl, fun v => by rw [Table.put, if_pos hk]; rfl⟩
    · have hput : ∀ v, Table.put ((k', v') :: rest) (.str k) v =
          (k', v') :: Table.put rest (.str k) v := fun v => by rw [Table.put, if_neg hk]
      have hfield : ∀ entries, field? ((k', v') :: entries) k = field? entries k := by
        intro entries
        rw [field?, List.lookup_cons, (Bool.not_eq_true _).mp hk, field?]
      rcases ih with ⟨hnone, hrest⟩ | ⟨before, v₀, after, rfl, hnone, hrest⟩
      · exact .inl ⟨(hfield rest).trans hnone, fun v => by rw [hput, hrest]; rfl⟩
      · exact .inr ⟨(k', v') :: before, v₀, after, rfl, (hfield before).trans hnone,
          fun v => by rw [hput, hrest]; rfl⟩

theorem field?_put (entries : List (Value × Value)) (k : String) (v : Value) (name : String) :
    field? (Table.put entries (.str k) v) name =
      if name = k then some v else field? entries name := by
  rcases put_str_cases entries k with ⟨hnone, hput⟩ | ⟨before, v₀, after, rfl, hnone, hput⟩
  · rw [hput, field?_append, field?_cons_str]
    by_cases h : name = k
    · rw [h, hnone]
      simp
    · simp [h]
  · rw [hput, field?_append, field?_append, field?_cons_str, field?_cons_str]
    by_cases h : name = k
    · rw [h, hnone]
      simp
    · simp [h]

theorem mem_put_str {e : Value × Value} (h : e ∈ Table.put entries (.str k) v) :
    e ∈ entries ∨ e = (.str k, v) := by
  rcases put_str_cases entries k with ⟨-, hput⟩ | ⟨before, v₀, after, rfl, -, hput⟩
  · rw [hput, List.mem_append, List.mem_singleton] at h
    exact h
  · rw [hput, List.mem_append, List.mem_cons] at h
    rw [List.mem_append, List.mem_cons]
    tauto

theorem isMapping_put (h : IsMapping entries) (k : String) (v : Value) :
    IsMapping (Table.put entries (.str k) v) := by
  rcases put_str_cases entries k with ⟨hnone, hput⟩ | ⟨before, v₀, after, rfl, -, hput⟩
  · rw [hput]
    refine List.pairwise_append.mpr ⟨h, List.pairwise_singleton _ _, ?_⟩
    intro e he e' he' hsame
    obtain rfl := List.mem_singleton.mp he'
    have hkey := List.lookup_eq_none_iff.mp hnone e he
    rw [beq_str_iff.mp hsame, bne, str_beq_str, beq_self_eq_true] at hkey
    cases hkey
  · rw [hput]
    simp only [IsMapping, List.pairwise_append, List.pairwise_cons, List.forall_mem_cons] at h ⊢
    exact h

/-- A map with the entries of another one written into it. -/
def putAll (entries more : List (Value × Value)) : List (Value × Value) :=
  more.foldl (fun t e => Table.put t e.1 e.2) entries

end Value

namespace StyleTable

open Value

variable {t t' t₁ t₂ : StyleTable} {kind : String} {fields more : List (Value × Value)}

/-! ## The fields of a kind -/

/-- The fields that are written last are those that count. -/
theorem field?_putAll (hmap : IsMapping more) (hknown : Known more)
    (fields : List (Value × Value)) (name : String) :
    field? (putAll fields more) name = (field? more name).or (field? fields name) := by
  induction more generalizing fields with
  | nil => rfl
  | cons e rest ih =>
    obtain ⟨⟨f, hkey⟩, hrest⟩ := List.forall_mem_cons.mp hknown
    obtain ⟨k, v⟩ := e
    obtain rfl : k = .str f.key := hkey
    have hput : putAll fields ((.str f.key, v) :: rest) =
        putAll (Table.put fields (.str f.key) v) rest := rfl
    rw [hput, ih (List.pairwise_cons.mp hmap).2 hrest, field?_put, field?_cons_str]
    by_cases h : name = f.key
    · rw [h, hmap.field?_eq_none]
      simp
    · simp [h]

theorem isMapping_putAll (hfields : IsMapping fields) (hknown : Known more) :
    IsMapping (putAll fields more) := by
  induction more generalizing fields with
  | nil => exact hfields
  | cons e rest ih =>
    obtain ⟨⟨f, hkey⟩, hrest⟩ := List.forall_mem_cons.mp hknown
    have hput : IsMapping (Table.put fields e.1 e.2) := hkey ▸ isMapping_put hfields _ _
    exact ih hput hrest

theorem mem_putAll (hknown : Known more) {e : Value × Value} (h : e ∈ putAll fields more) :
    e ∈ fields ∨ e ∈ more := by
  induction more generalizing fields with
  | nil => exact .inl h
  | cons e' rest ih =>
    obtain ⟨⟨f, hkey⟩, hrest⟩ := List.forall_mem_cons.mp hknown
    obtain ⟨k, v⟩ := e'
    obtain rfl : k = .str f.key := hkey
    have hput : e ∈ putAll (Table.put fields (.str f.key) v) rest := h
    rcases ih hrest hput with h | h
    · exact (mem_put_str h).imp_right fun heq => List.mem_cons.mpr (.inl heq)
    · exact .inr (List.mem_cons_of_mem _ h)

/-- Fields may be written in two goes. -/
theorem updated_putAll (hmap : IsMapping more) (hknown : Known more) (s : Style) :
    s.updated (putAll fields more) = (s.updated fields).updated more := by
  have hgiven : ∀ f : StyleField, f.given? (putAll fields more) =
      (f.given? more).or (f.given? fields) := by
    intro f
    rw [StyleField.given?, field?_putAll hmap hknown, Option.map_or]
    rfl
  simp only [Style.updated, hgiven]
  congr 1
  all_goals cases StyleField.given? more _ <;> rfl

/-! ## A kind -/

/-- What a kind is given by two style files, if the first one names it: the fields of both. -/
def uniteSpecs : Option Value → Value → Value
  | some (.map fields), .map more => .map (putAll fields more)
  | _, spec => spec

/-- The style file with one more kind written into it. -/
def uniteKind (raw : List (Value × Value)) (key spec : Value) : List (Value × Value) :=
  Table.put raw key (uniteSpecs (List.lookup key raw) spec)

/-- The kinds and fields of two style files. Those of the first one come first, and those of the
second one count. -/
def unite (raw more : List (Value × Value)) : List (Value × Value) :=
  more.foldl (fun raw e => uniteKind raw e.1 e.2) raw

end StyleTable

namespace Table

variable {α : Type} {t : Table String α} {k j : String}

theorem put_put_self (t : Table String α) (k : String) (a b : α) :
    (t.put k a).put k b = t.put k b := by
  induction t with
  | nil => simp [put]
  | cons e rest ih =>
    obtain ⟨k', a'⟩ := e
    by_cases h : k = k'
    · simp [put, h]
    · simp [put, h, ih]

/-- Writes to different keys commute if one of them has its place already. -/
theorem put_comm (hk : k ∈ t.keys) (h : k ≠ j) (a b : α) :
    (t.put k a).put j b = (t.put j b).put k a := by
  induction t with
  | nil => exact absurd hk List.not_mem_nil
  | cons e rest ih =>
    obtain ⟨k', a'⟩ := e
    by_cases hkk : k = k'
    · subst hkk
      simp [put, Ne.symm h]
    · have hrest : k ∈ keys rest := by
        rw [keys, List.map_cons, List.mem_cons] at hk
        exact hk.resolve_left hkk
      by_cases hjk : j = k'
      · simp [put, hkk, hjk]
      · simp [put, hkk, hjk, ih hrest]

theorem mem_keys_put_self (t : Table String α) (k : String) (a : α) : k ∈ (t.put k a).keys := by
  rw [mem_keys_iff, lookup_put, if_pos (beq_self_eq_true k)]
  rfl

theorem mem_keys_put_of_mem (hk : k ∈ t.keys) (j : String) (a : α) : k ∈ (t.put j a).keys := by
  rw [keys_put]
  split
  · exact hk
  · exact List.mem_append_left _ hk

end Table

namespace StyleTable

open Value

variable {t t' t₁ t₂ : StyleTable} {kind : String} {fields more raw : List (Value × Value)}

/-- What a kind inherits does not depend on the other kinds. -/
theorem inherited_put_of_ne {k : String} (h : k ≠ kind) (s : Style) :
    inherited (t.put kind s) k = t.inherited k := by
  rw [inherited, inherited, Style.known?, Style.known?, Table.lookup_put, if_neg (by simpa using h)]

/-- The style of a kind can be changed before the other kinds are merged, or after them. -/
theorem merge_put (hkind : kind ∈ t.keys) (hraw : IsStyleFile raw) (hnew : kind ∉ kindsOf raw)
    (s : Style) (h : t.merge raw = .ok t') :
    StyleTable.merge (t.put kind s) raw = .ok (t'.put kind s) := by
  induction raw generalizing t with
  | nil =>
    cases h
    rfl
  | cons e rest ih =>
    obtain ⟨key, spec⟩ := e
    have hspec := hraw.fields _ List.mem_cons_self
    obtain ⟨k, fields, rfl, rfl, haccepts, hrest⟩ := (merge_cons_eq_ok_iff hspec).mp h
    obtain ⟨hne, hnew⟩ := not_or.mp (mt List.mem_cons.mpr hnew)
    have hinherited := inherited_put_of_ne (t := t) (Ne.symm hne) s
    refine (merge_cons_eq_ok_iff hspec).mpr ⟨k, fields, rfl, rfl, ?_, ?_⟩
    · obtain ⟨hnamed, hknown, hfits, hsupported⟩ := haccepts
      exact ⟨hnamed, hknown, hfits, hinherited ▸ hsupported⟩
    · rw [override, hinherited, Table.put_comm hkind hne]
      exact ih (Table.mem_keys_put_of_mem hkind _ _) hraw.tail hnew hrest

/-- A kind that is accepted twice, once on top of the other, is accepted with all its fields. -/
theorem Accepts.putAll (h : t.Accepts kind fields) (h' : t'.Accepts kind more)
    (hmore : IsMapping more) (hinherited : t'.inherited kind = (t.inherited kind).updated fields) :
    t.Accepts kind (putAll fields more) where
  named := h.named
  known e he := (mem_putAll h'.known he).elim (h.known e) (h'.known e)
  fits e he := (mem_putAll h'.known he).elim (h.fits e) (h'.fits e)
  supported := by
    rw [updated_putAll hmore h'.known, ← hinherited]
    exact h'.supported

/-- A kind that is merged after a style file could have been written into it. -/
theorem merge_uniteKind (hraw : IsStyleFile raw) (hmore : IsMapping more) (h : t.merge raw = .ok t')
    (haccepts : t'.Accepts kind more) :
    t.merge (uniteKind raw (.str kind) (.map more)) = .ok (t'.override kind more) := by
  have hmap : ∀ {fields}, IsMapping fields → ∀ fields', Value.map fields = .map fields' →
      IsMapping fields' := fun h fields' heq => Value.map.inj heq ▸ h
  rcases put_str_cases raw kind with ⟨hnone, hput⟩ | ⟨before, spec, after, rfl, hnone, hput⟩
  · have hlookup : List.lookup (Value.str kind) raw = none := hnone
    rw [uniteKind, hlookup, hput, merge_append, h]
    exact (merge_cons_eq_ok_iff (hmap hmore)).mpr ⟨kind, more, rfl, rfl, haccepts, rfl⟩
  · -- the file names the kind between others, and those after it do not depend on it
    have hfile := hraw.sublist (List.sublist_append_right before ((.str kind, spec) :: after))
    have hspec := hfile.fields _ List.mem_cons_self
    have hnew := not_mem_kindsOf_tail hfile.kinds
    rw [merge_append] at h
    obtain ⟨next, hbefore, h⟩ := exists_of_bind_eq_ok h
    obtain ⟨k, fields, hk, rfl, hfirst, hafter⟩ := (merge_cons_eq_ok_iff hspec).mp h
    obtain rfl := Value.str.inj hk
    have hlookup : List.lookup (Value.str kind) (before ++ (.str kind, .map fields) :: after) =
        some (.map fields) := by
      show field? _ kind = _
      rw [field?_append, hnone, field?_cons_str, if_pos rfl, Option.none_or]
    have hinherited : t'.inherited kind = (next.inherited kind).updated fields := by
      rw [inherited, Style.known?, (overridden_of_merge hfile.tail hafter).unnamed kind hnew,
        lookup_override_self, Option.some_or, Option.getD_some]
    have hoverride : next.override kind (putAll fields more) =
        (next.override kind fields).put kind ((t'.inherited kind).updated more) := by
      rw [override, updated_putAll hmore haccepts.known, ← hinherited, override,
        Table.put_put_self]
    have hboth := isMapping_putAll (hspec fields rfl) haccepts.known
    rw [uniteKind, hlookup, hput, merge_append, hbefore]
    refine (merge_cons_eq_ok_iff (hmap hboth)).mpr
      ⟨kind, _, rfl, rfl, hfirst.putAll haccepts hmore hinherited, ?_⟩
    rw [hoverride]
    exact merge_put (Table.mem_keys_put_self _ _ _) hfile.tail hnew _ hafter

theorem isStyleFile_uniteKind (hraw : IsStyleFile raw) (hmore : IsMapping more)
    (hknown : Known more) : IsStyleFile (uniteKind raw (.str kind) (.map more)) := by
  refine ⟨isMapping_put hraw.kinds _ _, fun e he => ?_⟩
  rcases mem_put_str he with he | rfl
  · exact hraw.fields e he
  · intro fields heq
    cases hlookup : List.lookup (Value.str kind) raw with
    | none =>
      rw [hlookup] at heq
      exact Value.map.inj heq ▸ hmore
    | some spec =>
      obtain ⟨k, hmem⟩ := mem_of_field? hlookup
      have hspec := hraw.fields _ hmem
      rw [hlookup] at heq
      cases spec with
      | map first => exact Value.map.inj heq ▸ isMapping_putAll (hspec first rfl) hknown
      | _ => exact Value.map.inj heq ▸ hmore

/-! ## Style files -/

/-- Two style files that are accepted in turn are accepted in one, with the same table. -/
theorem merge_unite_eq_ok {raw' : List (Value × Value)} (hraw : IsStyleFile raw)
    (hraw' : IsStyleFile raw') (h : t.merge raw = .ok t₁) (h' : t₁.merge raw' = .ok t₂) :
    t.merge (unite raw raw') = .ok t₂ := by
  induction raw' generalizing raw t₁ with
  | nil =>
    cases h'
    exact h
  | cons e rest ih =>
    obtain ⟨key, spec⟩ := e
    have hspec := hraw'.fields _ List.mem_cons_self
    obtain ⟨kind, more, rfl, rfl, haccepts, hrest⟩ := (merge_cons_eq_ok_iff hspec).mp h'
    have hmore := hspec more rfl
    exact ih (isStyleFile_uniteKind hraw hmore haccepts.known) hraw'.tail
      (merge_uniteKind hraw hmore h haccepts) hrest

/-- The style file gives no class to the kind. -/
def KeepsClass (kind : String) (raw : List (Value × Value)) : Prop :=
  ∀ fields, (.str kind, .map fields) ∈ raw → StyleField.given? fields .className = none

/-- A kind in the table keeps its class. -/
theorem className_of_merge (hraw : IsStyleFile raw) (hclass : KeepsClass kind raw) {s : Style}
    (hs : t.lookup kind = some s) (h : t.merge raw = .ok t') :
    ∃ s', t'.lookup kind = some s' ∧ s'.className = s.className := by
  obtain ⟨hunnamed, hnamed, -⟩ := overridden_of_merge hraw h
  by_cases hkind : kind ∈ kindsOf raw
  · obtain ⟨e, he, hkey⟩ := mem_kindsOf.mp hkind
    obtain ⟨k, fields, rfl⟩ := exists_of_mem_of_merge hraw h he
    obtain rfl := Value.str.inj hkey
    refine ⟨_, hnamed k fields he, ?_⟩
    rw [hs, Style.updated, hclass fields he]
    rfl
  · exact ⟨s, (hunnamed kind hkind).trans hs, rfl⟩

/-- It does so through any number of style files. -/
theorem className_of_foldlM {raws : List (List (Value × Value))} (hraws : ∀ r ∈ raws, IsStyleFile r)
    (hclass : ∀ r ∈ raws, KeepsClass kind r) {s : Style} (hs : t.lookup kind = some s)
    (h : raws.foldlM merge t = .ok t') :
    ∃ s', t'.lookup kind = some s' ∧ s'.className = s.className := by
  induction raws generalizing t s with
  | nil =>
    cases h
    exact ⟨s, hs, rfl⟩
  | cons raw rest ih =>
    obtain ⟨hraw, hrest⟩ := List.forall_mem_cons.mp hraws
    obtain ⟨hkeeps, hkeepsRest⟩ := List.forall_mem_cons.mp hclass
    rw [List.foldlM_cons] at h
    obtain ⟨next, hnext, h⟩ := exists_of_bind_eq_ok h
    obtain ⟨s₁, hs₁, hclass₁⟩ := className_of_merge hraw hkeeps hs hnext
    obtain ⟨s₂, hs₂, hclass₂⟩ := ih hrest hkeepsRest hs₁ h
    exact ⟨s₂, hs₂, hclass₂.trans hclass₁⟩

/-- What merging style files one after another comes to, for every table and every two files that
are accepted in turn.

* One file with the kinds and fields of both is accepted as well, and gives the same table in the
  same order.
* Each of the two files leaves the kinds that it does not name as they are, and a field that it does
  not give is inherited: from the table, or else from the built-in style, or else from the plain
  style in a class of the kind's name.
* A class that the first file names stays through all later files that name none for the kind. -/
theorem merge_unite {base t₁ t₂ : StyleTable} {raw₁ raw₂ : List (Value × Value)}
    (hraw₁ : IsStyleFile raw₁) (hraw₂ : IsStyleFile raw₂)
    (h₁ : base.merge raw₁ = .ok t₁) (h₂ : t₁.merge raw₂ = .ok t₂) :
    base.merge (unite raw₁ raw₂) = .ok t₂ ∧
    base.Overridden raw₁ t₁ ∧ t₁.Overridden raw₂ t₂ ∧
    ∀ kind fields name, (.str kind, .map fields) ∈ raw₁ →
      StyleField.given? fields .className = some name →
      ∀ (later : List (List (Value × Value))) (t' : StyleTable), (∀ r ∈ later, IsStyleFile r) →
        (∀ r ∈ later, KeepsClass kind r) → later.foldlM merge t₁ = .ok t' →
        ∃ s, t'.lookup kind = some s ∧ s.className = name := by
  have hfirst := overridden_of_merge hraw₁ h₁
  refine ⟨merge_unite_eq_ok hraw₁ hraw₂ h₁ h₂, hfirst, overridden_of_merge hraw₂ h₂, ?_⟩
  intro kind fields name hmem hname later t' hlater hkeeps h
  obtain ⟨s, hs, hclass⟩ := className_of_foldlM hlater hkeeps (hfirst.named kind fields hmem) h
  refine ⟨s, hs, hclass.trans ?_⟩
  rw [Style.updated, hname]
  rfl

/-- Two style files. The first one puts a kind that is not known in the class of all that are not,
and the second one gives it a colour. -/
def sampleFiles : List (Value × Value) × List (Value × Value) :=
  ([(.str "ApiConnection", .map [(.str "class_name", .str "Default")]),
    (.str "If", .map [(.str "fill", .str "#111111")])],
   [(.str "If", .map [(.str "stroke", .str "#222222"), (.str "shape", .str "rounded")]),
    (.str "Scope", .map [(.str "fill", .str "#333333")]),
    (.str "ApiConnection", .map [(.str "fill", .str "#444444")])])

theorem isStyleFile_sampleFiles : IsStyleFile sampleFiles.1 ∧ IsStyleFile sampleFiles.2 := by
  refine ⟨⟨by decide, ?_⟩, ⟨by decide, ?_⟩⟩
  · simp [sampleFiles]
    decide
  · simp [sampleFiles]
    decide

/-- The table after the first file, and after both. -/
def sampleTables : StyleTable × StyleTable :=
  ([("ApiConnection", ⟨"#FFFFFF", "#000000", .rectangle, "Default"⟩),
    ("If", ⟨"#111111", "#FF6D00", .diamond, "If"⟩)],
   [("ApiConnection", ⟨"#444444", "#000000", .rectangle, "Default"⟩),
    ("If", ⟨"#111111", "#222222", .rounded, "If"⟩),
    ("Scope", ⟨"#333333", "#2962FF", .rectangle, "Scope"⟩)])

theorem merge_unite_sampleFiles :
    IsStyleFile sampleFiles.1 ∧ IsStyleFile sampleFiles.2 ∧
    StyleTable.merge [] sampleFiles.1 = .ok sampleTables.1 ∧
    sampleTables.1.merge sampleFiles.2 = .ok sampleTables.2 ∧
    StyleTable.merge [] (unite sampleFiles.1 sampleFiles.2) = .ok sampleTables.2 ∧
    ∃ s, sampleTables.2.lookup "ApiConnection" = some s ∧ s.className = "Default" := by
  obtain ⟨hfirst, hsecond⟩ := isStyleFile_sampleFiles
  have h₁ : StyleTable.merge [] sampleFiles.1 = .ok sampleTables.1 := rfl
  have h₂ : sampleTables.1.merge sampleFiles.2 = .ok sampleTables.2 := rfl
  obtain ⟨hboth, -, -, hclass⟩ := merge_unite hfirst hsecond h₁ h₂
  refine ⟨hfirst, hsecond, h₁, h₂, hboth, hclass "ApiConnection" _ "Default" List.mem_cons_self rfl
    [sampleFiles.2] _ ?_ ?_ rfl⟩
  · exact List.forall_mem_singleton.mpr hsecond
  · refine List.forall_mem_singleton.mpr fun fields hmem => ?_
    simp only [sampleFiles, List.mem_cons, Prod.mk.injEq, Value.str.injEq, Value.map.injEq,
      String.reduceEq, List.not_mem_nil, false_and, false_or, or_false, true_and] at hmem
    rw [hmem]
    rfl

end StyleTable

end Flowchart
