import Mathlib.Data.Fintype.EquivFin
import Mathlib.Tactic.Common
import Flowchart.Proofs.Reading
import Flowchart.Style.Override

/-!
# Kinds that share a class

Which kinds of actions are in one class, and when they have the same colours.

* `ownClass` is the class of a kind that is known, and `StyleTable.Conservative` says that a table
  of overrides leaves each kind in it; `StyleTable.Conservative.merge`: a style file that names no
  classes gives such a table;
* `StyleTable.Coherent` says that kinds in one class have the same colours. Few kinds share a
  class, so in a conservative table this comes down to `StyleTable.Uniform`.
-/

namespace Flowchart

/-- The class of a kind that is known: of its own, but appending to a variable looks like setting
one. -/
def ownClass (kind : String) : String :=
  if kind = "AppendToStringVariable" then "SetVariable" else kind

/-- Styles that give a class the same colours. -/
def Style.SameColours (s s' : Style) : Prop := s.fill = s'.fill ∧ s.stroke = s'.stroke

theorem Style.SameColours.refl (s : Style) : s.SameColours s := ⟨rfl, rfl⟩

theorem Style.SameColours.symm {s s' : Style} (h : s.SameColours s') : s'.SameColours s :=
  ⟨h.1.symm, h.2.symm⟩

/-- If two steps succeed, so does the first. -/
theorem exists_of_bind_eq_ok {ε α β : Type} {x : Except ε α} {f : α → Except ε β} {b : β}
    (h : x >>= f = .ok b) : ∃ a, x = .ok a ∧ f a = .ok b := by
  cases x with
  | error e => cases h
  | ok a => exact ⟨a, rfl, h⟩

namespace StyleTable

variable {t : StyleTable}

/-- A style that is known is an override, or built in. -/
theorem mem_of_known? {kind : String} {s : Style} (h : Style.known? t kind = some s) :
    (kind, s) ∈ t ++ Style.builtIn := by
  rw [List.mem_append]
  exact (Option.or_eq_some_iff.mp h).imp Table.mem_of_lookup fun h => Table.mem_of_lookup h.2

/-- The first kind is merged before the others. -/
theorem merge_cons (t : StyleTable) (key spec : Value) (rest : List (Value × Value)) :
    t.merge ((key, spec) :: rest) = t.mergeKind key spec >>= fun next => next.merge rest := rfl

/-! ## Conservative tables -/

/-- A table that has each kind once, in its own class. -/
structure Conservative (t : StyleTable) : Prop where
  nodup : t.keys.Nodup
  className_eq : ∀ e ∈ t, e.2.className = ownClass e.1

theorem conservative_nil : Conservative [] := ⟨List.nodup_nil, fun _ h => absurd h List.not_mem_nil⟩

theorem conservative_builtIn : Conservative Style.builtIn := ⟨by decide, by decide⟩

theorem Conservative.className_of_lookup (h : t.Conservative) {kind : String} {s : Style}
    (hlookup : t.lookup kind = some s) : s.className = ownClass kind :=
  h.className_eq _ (Table.mem_of_lookup hlookup)

theorem Conservative.className_of_known (h : t.Conservative) {kind : String} {s : Style}
    (hknown : Style.known? t kind = some s) : s.className = ownClass kind :=
  (List.mem_append.mp (mem_of_known? hknown)).elim (h.className_eq _)
    (conservative_builtIn.className_eq _)

/-- A kind that is not known shares its class with no other one. -/
theorem ownClass_of_known?_eq_none {kind : String} (h : Style.known? t kind = none) :
    ownClass kind = kind := by
  refine if_neg fun hkind => ?_
  rw [Style.known?, hkind, Option.or_eq_none_iff] at h
  exact absurd h.2 (by decide)

/-- What a kind inherits is in its own class. -/
theorem Conservative.className_inherited (h : t.Conservative) (kind : String) :
    (t.inherited kind).className = ownClass kind := by
  cases hknown : Style.known? t kind with
  | some s =>
    rw [inherited, hknown]
    exact h.className_of_known hknown
  | none =>
    rw [inherited, hknown, ownClass_of_known?_eq_none hknown]
    rfl

/-- The fields name no class. -/
def NamesNoClass (fields : List (Value × Value)) : Prop :=
  ∀ f ∈ fields, StyleField.ofKey? f.1 ≠ some .className

/-- Fields that name no class leave a style in its class. -/
theorem className_of_setFields {kind : String} {s s' : Style} {fields : List (Value × Value)}
    (hfields : NamesNoClass fields) (h : setFields kind s fields = .ok s') :
    s'.className = s.className := by
  induction fields generalizing s with
  | nil =>
    cases h
    rfl
  | cons f rest ih =>
    obtain ⟨k, v⟩ := f
    have hrest : NamesNoClass rest := fun f hf => hfields f (List.mem_cons_of_mem _ hf)
    rw [setFields] at h
    cases hfield : StyleField.ofKey? k with
    | none =>
      simp only [hfield] at h
      exact ih hrest h
    | some field =>
      have hset : ∀ text, (field.set text s).className = s.className := by
        intro text
        cases field with
        | className => exact absurd hfield (hfields (k, v) List.mem_cons_self)
        | _ => rfl
      cases htext : fieldText kind field v with
      | error e => simp [hfield, htext, bind, Except.bind] at h
      | ok text =>
        simp only [hfield, htext, bind, Except.bind] at h
        split at h
        · cases h
        · rw [ih hrest h, hset]

/-- A kind that is merged inherits a style and has its fields written into it. -/
theorem mergeKind_eq_ok {t' : StyleTable} {key spec : Value} (h : t.mergeKind key spec = .ok t') :
    ∃ kind fields style, spec = .map fields ∧
      setFields kind (t.inherited kind) fields = .ok style ∧ t' = t.put kind style := by
  rw [mergeKind.eq_def] at h
  split at h
  · rename_i kind
    split at h
    · cases h
    · split at h
      · rename_i fields
        cases hstyle : setFields kind (t.inherited kind) fields with
        | error e =>
          simp only [hstyle, bind, Except.bind] at h
          split at h
          · cases h
          · cases h
        | ok style =>
          simp only [hstyle, bind, Except.bind] at h
          refine ⟨kind, fields, style, rfl, hstyle, ?_⟩
          split at h
          · cases h
          · split at h
            · cases h
            · cases h
              rfl
      · cases h
  · cases h

/-- The style file names no classes. -/
def NamesNoClasses (raw : List (Value × Value)) : Prop :=
  ∀ e ∈ raw, ∀ fields, e.2 = .map fields → NamesNoClass fields

/-- A style file that names no classes leaves each kind in its own class. -/
theorem Conservative.merge (h : t.Conservative) {raw : List (Value × Value)}
    (hraw : NamesNoClasses raw) {t' : StyleTable} (hmerge : t.merge raw = .ok t') :
    t'.Conservative := by
  induction raw generalizing t with
  | nil =>
    cases hmerge
    exact h
  | cons e rest ih =>
    obtain ⟨key, spec⟩ := e
    rw [merge_cons] at hmerge
    obtain ⟨next, hkind, hmerge⟩ := exists_of_bind_eq_ok hmerge
    obtain ⟨kind, fields, style, rfl, hstyle, rfl⟩ := mergeKind_eq_ok hkind
    refine ih ⟨Table.nodup_keys_put h.nodup kind style, ?_⟩
      (fun e he => hraw e (List.mem_cons_of_mem _ he)) hmerge
    rintro ⟨k, s⟩ he
    rcases Table.mem_put he with he | ⟨rfl, rfl⟩
    · exact h.className_eq _ he
    · rw [className_of_setFields (hraw _ List.mem_cons_self fields rfl) hstyle,
        h.className_inherited]

/-! ## Colours of a class -/

/-- The class of a kind: its own if it is known, and one for all that are not. -/
theorem Conservative.className_styleFor (h : t.Conservative) (kind : String) :
    (styleFor t kind).className
      = if (Style.known? t kind).isSome then ownClass kind else "Default" := by
  rw [styleFor]
  cases hknown : Style.known? t kind with
  | some s => exact h.className_of_known hknown
  | none => rfl

/-- Kinds in one class have the same colours. -/
def Coherent (t : StyleTable) : Prop :=
  ∀ kind kind', (styleFor t kind).className = (styleFor t kind').className →
    (styleFor t kind).SameColours (styleFor t kind')

/-- The kinds that share a class have the same colours: the two that deal with variables, and those
that are not known with the one that is called like their class. -/
structure Uniform (t : StyleTable) : Prop where
  appending : (styleFor t "AppendToStringVariable").SameColours (styleFor t "SetVariable")
  unknown : (styleFor t "Default").SameColours (Style.plain "Default")

theorem styleFor_of_unknown {kind : String} (h : Style.known? t kind = none) :
    styleFor t kind = Style.plain "Default" := by
  rw [styleFor, h]
  rfl

/-- There is a kind that the table does not know. -/
theorem exists_unknown (t : StyleTable) : ∃ kind, Style.known? t kind = none := by
  obtain ⟨kind, hkind⟩ :=
    Infinite.exists_notMem_finset (t.keys ++ Style.builtIn.keys).toFinset
  rw [List.mem_toFinset, List.mem_append, not_or, Table.mem_keys_iff, Table.mem_keys_iff] at hkind
  refine ⟨kind, Option.or_eq_none_iff.mpr ⟨?_, ?_⟩⟩
  · exact Option.not_isSome_iff_eq_none.mp hkind.1
  · exact Option.not_isSome_iff_eq_none.mp hkind.2

/-- The class of a kind that is known is shared by the two kinds that deal with variables only. -/
theorem eq_or_of_ownClass_eq {kind kind' : String} (h : ownClass kind = ownClass kind') :
    kind = kind' ∨ (kind = "AppendToStringVariable" ∧ kind' = "SetVariable") ∨
      (kind = "SetVariable" ∧ kind' = "AppendToStringVariable") := by
  by_cases hkind : kind = "AppendToStringVariable"
  · by_cases hkind' : kind' = "AppendToStringVariable"
    · exact Or.inl (hkind.trans hkind'.symm)
    · rw [ownClass, if_pos hkind, ownClass, if_neg hkind'] at h
      exact Or.inr (Or.inl ⟨hkind, h.symm⟩)
  · by_cases hkind' : kind' = "AppendToStringVariable"
    · rw [ownClass, if_neg hkind, ownClass, if_pos hkind'] at h
      exact Or.inr (Or.inr ⟨h, hkind'⟩)
    · rw [ownClass, if_neg hkind, ownClass, if_neg hkind'] at h
      exact Or.inl h

/-- A kind in the class of those that are not known has their colours. -/
theorem Conservative.sameColours_plain (h : t.Conservative) (hu : t.Uniform) {kind : String}
    (hkind : (styleFor t kind).className = "Default") :
    (styleFor t kind).SameColours (Style.plain "Default") := by
  cases hknown : Style.known? t kind with
  | none =>
    rw [styleFor_of_unknown hknown]
    exact .refl _
  | some s =>
    rw [h.className_styleFor, hknown, Option.isSome_some, if_pos rfl] at hkind
    have hown : ownClass kind = ownClass "Default" := hkind.trans (by decide)
    rcases eq_or_of_ownClass_eq hown with rfl | ⟨-, hne⟩ | ⟨-, hne⟩
    · exact hu.unknown
    · exact absurd hne (by decide)
    · exact absurd hne (by decide)

/-- Kinds in one class have the same colours if those do that share one. -/
theorem Conservative.coherent (h : t.Conservative) (hu : t.Uniform) : t.Coherent := by
  intro kind kind' hclass
  by_cases hdefault : (styleFor t kind).className = "Default"
  · have hkind := h.sameColours_plain hu hdefault
    have hkind' := h.sameColours_plain hu (hclass ▸ hdefault)
    exact ⟨hkind.1.trans hkind'.1.symm, hkind.2.trans hkind'.2.symm⟩
  · have hown : ∀ k, (styleFor t k).className ≠ "Default" →
        (styleFor t k).className = ownClass k := by
      intro k hk
      rw [h.className_styleFor] at hk ⊢
      split
      · rfl
      · rename_i hunknown
        rw [if_neg hunknown] at hk
        exact absurd rfl hk
    have hsame := hclass
    rw [hown kind hdefault, hown kind' (hclass ▸ hdefault)] at hsame
    rcases eq_or_of_ownClass_eq hsame with rfl | ⟨rfl, rfl⟩ | ⟨rfl, rfl⟩
    · exact .refl _
    · exact hu.appending
    · exact hu.appending.symm

/-- The kinds of plain actions are enough to see whether that is so. -/
theorem Conservative.uniform (h : t.Conservative)
    (hc : ∀ kind ∉ boxKinds, ∀ kind' ∉ boxKinds,
      (styleFor t kind).className = (styleFor t kind').className →
        (styleFor t kind).SameColours (styleFor t kind')) : t.Uniform := by
  have hknown : ∀ kind, (Style.builtIn.lookup kind).isSome → (Style.known? t kind).isSome :=
    fun kind hkind => by rw [Style.known?, Option.isSome_or, hkind, Bool.or_true]
  constructor
  · refine hc _ (by decide) _ (by decide) ?_
    rw [h.className_styleFor, h.className_styleFor, if_pos (hknown _ (by decide)),
      if_pos (hknown _ (by decide))]
    decide
  · obtain ⟨kind, hkind⟩ := exists_unknown t
    have hplain : kind ∉ boxKinds := by
      intro hbox
      have hbuiltIn : ∀ k ∈ boxKinds, (Style.builtIn.lookup k).isSome := by decide
      have hsome := hknown kind (hbuiltIn kind hbox)
      rw [hkind] at hsome
      cases hsome
    rw [← styleFor_of_unknown hkind]
    refine hc _ (by decide) kind hplain ?_
    rw [styleFor_of_unknown hkind, h.className_styleFor]
    split
    · decide
    · rfl

/-! ## The style that defines a class -/

theorem className_classStyle (t : StyleTable) (name : String) :
    (classStyle t name).className = name := by
  rw [classStyle]
  cases hfind : ((t ++ Style.builtIn).map Prod.snd).find? (·.className == name) with
  | none => rfl
  | some s =>
    have hclass := List.find?_some hfind
    exact beq_iff_eq.mp hclass

/-- A class that a built-in style has is defined by the style of one of its kinds. -/
theorem Conservative.exists_classStyle_eq (h : t.Conservative) {name : String}
    (hname : ∃ e ∈ Style.builtIn, e.2.className = name) :
    ∃ kind, classStyle t name = styleFor t kind := by
  have hbuiltIn : ((t ++ Style.builtIn).map Prod.snd).find? (·.className == name) ≠ none := by
    obtain ⟨e, he, hclass⟩ := hname
    rw [ne_eq, List.find?_eq_none]
    intro hnone
    exact hnone e.2 (List.mem_map_of_mem (List.mem_append_right _ he)) (beq_iff_eq.mpr hclass)
  obtain ⟨s, hfind⟩ := Option.ne_none_iff_exists'.mp hbuiltIn
  rw [List.map_append, List.find?_append] at hfind
  rw [classStyle, List.map_append, List.find?_append, hfind, Option.getD_some]
  rcases Option.or_eq_some_iff.mp hfind with hs | ⟨hnone, hs⟩
  · obtain ⟨⟨kind, s'⟩, he, rfl⟩ := List.mem_map.mp (List.mem_of_find?_eq_some hs)
    exact ⟨kind, by rw [styleFor, Style.known?, Table.lookup_of_mem h.nodup he]; rfl⟩
  · obtain ⟨⟨kind, s'⟩, he, rfl⟩ := List.mem_map.mp (List.mem_of_find?_eq_some hs)
    -- an override of the kind would be in the same class, and would have been found first
    have hlookup : t.lookup kind = none := by
      by_contra hsome
      obtain ⟨s, hlookup⟩ := Option.ne_none_iff_exists'.mp hsome
      have hclass : s.className = s'.className :=
        (h.className_of_lookup hlookup).trans (conservative_builtIn.className_eq _ he).symm
      have hfound := List.find?_some hs
      refine List.find?_eq_none.mp hnone s (List.mem_map_of_mem (Table.mem_of_lookup hlookup)) ?_
      rwa [hclass]
    exact ⟨kind, by
      rw [styleFor, Style.known?, hlookup, Table.lookup_of_mem conservative_builtIn.nodup he]; rfl⟩

end StyleTable

end Flowchart
