import Mathlib.Data.List.Chain
import Flowchart.Proofs.Labels

/-!
# The codes of labels

Five characters are written in labels by codes of the diagram language, which are made of other
characters.

* `Text.WellSpaced` texts have no blanks but single spaces inside. What a label shows is such a
  text, and `Text.WellSpaced.squeeze_eq` and `trim_eq` say that nothing is left to collapse in it;
* `Text.replaceAll` replaces words in one pass from left to right, and `Text.replaceInTurn` in a
  pass for each word. `replaceInTurn_encodings` and `replaceInTurn_codes`: for the codes this makes
  no difference, whether they are written or read;
* `replaceAll_flatMap`: reading the codes of a label gives what reading those in the text itself
  gives, so in `labelText_codes` the text is read back unless it holds a code already.
-/

namespace Flowchart

namespace Text

/-! ## Blanks -/

/-- A text in which every blank is a single space between two characters that are none. -/
structure WellSpaced (s : List Char) : Prop where
  spaces : ∀ c ∈ s, isBlank c → c = ' '
  apart : s.IsChain fun c d => ¬(isBlank c ∧ isBlank d)
  first : ∀ c ∈ s.head?, ¬isBlank c
  last : ∀ c ∈ s.getLast?, ¬isBlank c

theorem head?_squeeze (s : List Char) :
    (squeeze s).head?.any isBlank = s.head?.any isBlank := by
  induction s with
  | nil => rfl
  | cons c rest ih =>
    rw [squeeze]
    by_cases hc : isBlank c
    · by_cases hrest : rest.head?.any isBlank
      · rw [if_pos hc, if_pos hrest, ih, hrest]
        simp [hc]
      · rw [if_pos hc, if_neg hrest]
        simp [hc, isBlank_space]
    · rw [if_neg hc]
      rfl

/-- What is squeezed has no two blanks in a row. -/
theorem isChain_squeeze (s : List Char) :
    (squeeze s).IsChain fun c d => ¬(isBlank c ∧ isBlank d) := by
  induction s with
  | nil => exact .nil
  | cons c rest ih =>
    rw [squeeze]
    split
    · split
      · exact ih
      · rename_i hrest
        refine List.isChain_cons.mpr ⟨fun d hd hblank => hrest ?_, ih⟩
        rw [← head?_squeeze, Option.any_eq_true]
        exact ⟨d, hd, hblank.2⟩
    · rename_i hc
      exact List.isChain_cons.mpr ⟨fun d _ hblank => hc hblank.1, ih⟩

theorem trimEnd_isPrefix (s : List Char) : trimEnd s <+: s := by
  rw [trimEnd, ← List.reverse_suffix, List.reverse_reverse]
  exact List.dropWhile_suffix _

theorem trim_isInfix (s : List Char) : trim s <:+: s :=
  (trimEnd_isPrefix _).isInfix.trans (List.dropWhile_suffix _).isInfix

/-- The first character behind the blanks is none. -/
theorem not_isBlank_of_mem_head?_dropWhile {s : List Char} {c : Char}
    (h : c ∈ (s.dropWhile isBlank).head?) : ¬isBlank c := by
  have hnot := List.head?_dropWhile_not isBlank s
  rw [Option.mem_def.mp h] at hnot
  simpa using hnot

/-- Squeezing leaves single spaces, and trimming those inside. -/
theorem wellSpaced_trim_squeeze (s : List Char) : WellSpaced (trim (squeeze s)) where
  spaces c hc hblank := eq_space_of_mem_squeeze (mem_of_mem_trim hc) hblank
  apart := List.IsChain.infix (isChain_squeeze s) (trim_isInfix _)
  first c hc := by
    obtain ⟨after, hafter⟩ := trimEnd_isPrefix ((squeeze s).dropWhile isBlank)
    apply not_isBlank_of_mem_head?_dropWhile (s := squeeze s)
    rw [← hafter, List.head?_append, Option.mem_def, ← trim, Option.mem_def.mp hc, Option.some_or]
  last c hc := by
    rw [trim, trimEnd, List.getLast?_reverse] at hc
    exact not_isBlank_of_mem_head?_dropWhile hc

namespace WellSpaced

variable {s : List Char}

theorem squeeze_eq (h : WellSpaced s) : squeeze s = s := by
  obtain ⟨hspaces, hapart, -, -⟩ := h
  induction s with
  | nil => rfl
  | cons c rest ih =>
    rw [List.isChain_cons] at hapart
    have hrest := ih (fun d hd => hspaces d (List.mem_cons_of_mem _ hd)) hapart.2
    by_cases hc : isBlank c
    · have hnext : ¬rest.head?.any isBlank := by
        rw [Option.any_eq_true]
        rintro ⟨d, hd, hblank⟩
        exact hapart.1 d hd ⟨hc, hblank⟩
      rw [squeeze, if_pos hc, if_neg hnext, hrest, hspaces c List.mem_cons_self hc]
    · rw [squeeze, if_neg hc, hrest]

theorem trim_eq (h : WellSpaced s) : trim s = s := by
  have hnone : ∀ s : List Char, (∀ c ∈ s.head?, ¬isBlank c) → s.dropWhile isBlank = s := by
    intro s hs
    cases s with
    | nil => rfl
    | cons c rest => exact List.dropWhile_cons_of_neg (hs c rfl)
  rw [trim, hnone s h.first, trimEnd, hnone s.reverse, List.reverse_reverse]
  rw [List.head?_reverse]
  exact h.last

/-- A text stays well-spaced when characters are written by other ones that are no blanks. -/
theorem flatMap (h : WellSpaced s) {f : Char → List Char}
    (hf : ∀ c, f c = [c] ∨ (f c ≠ [] ∧ ∀ d ∈ f c, ¬isBlank d)) : WellSpaced (s.flatMap f) := by
  have hblank : ∀ c, ∀ d ∈ f c, isBlank d → d = c := by
    intro c d hd hblank
    rcases hf c with hkept | ⟨-, hnone⟩
    · rwa [hkept, List.mem_singleton] at hd
    · exact absurd hblank (hnone d hd)
  have hhead : ∀ s : List Char, ∀ d ∈ (s.flatMap f).head?, isBlank d → d ∈ s.head? := by
    intro s d hd hd'
    cases s with
    | nil => cases hd
    | cons c rest =>
      have hne : f c ≠ [] := (hf c).elim (fun hkept => by simp [hkept]) And.left
      rw [List.flatMap_cons, List.head?_append_of_ne_nil _ hne] at hd
      exact Option.mem_some.mpr (hblank c d (List.mem_of_mem_head? hd) hd').symm
  refine ⟨?_, ?_, ?_, ?_⟩
  · intro d hd hd'
    obtain ⟨c, hc, hd⟩ := List.mem_flatMap.mp hd
    obtain rfl := hblank c d hd hd'
    exact h.spaces d hc hd'
  · obtain ⟨-, hapart, -, -⟩ := h
    induction s with
    | nil => exact .nil
    | cons c rest ih =>
      rw [List.isChain_cons] at hapart
      rw [List.flatMap_cons, List.isChain_append]
      refine ⟨?_, ih hapart.2, ?_⟩
      · rcases hf c with hkept | ⟨-, hnone⟩
        · rw [hkept]
          exact .singleton c
        · refine List.Pairwise.isChain (List.pairwise_of_forall_mem_list ?_)
          exact fun d hd _ _ hblank => hnone d hd hblank.1
      · rintro d hd d' hd' ⟨hd₁, hd₂⟩
        obtain rfl := hblank c d (List.mem_of_mem_getLast? hd) hd₁
        exact hapart.1 d' (hhead rest d' hd' hd₂) ⟨hd₁, hd₂⟩
  · exact fun d hd hd' => h.first d (hhead s d hd hd') hd'
  · intro d hd hd'
    rcases s.eq_nil_or_concat' with rfl | ⟨before, c, rfl⟩
    · cases hd
    · have hne : f c ≠ [] := (hf c).elim (fun hkept => by simp [hkept]) And.left
      rw [List.flatMap_append, List.flatMap_singleton, List.getLast?_append_of_ne_nil _ hne] at hd
      obtain rfl := hblank c d (List.mem_of_mem_getLast? hd) hd'
      exact h.last d (by simp) hd'

end WellSpaced

/-! ## References -/

/-- Without an ampersand there are no references. -/
theorem CharRef.decode_eq_self {s : List Char} (h : '&' ∉ s) : decode s = s := by
  induction s with
  | nil => exact decode.eq_1
  | cons c rest ih =>
    rw [List.mem_cons, not_or] at h
    rw [decode, if_neg (Ne.symm h.1), ih h.2]

theorem CharRef.limit?_eq_none {s : List Char} (h : '&' ∉ s) : limit? s = none := by
  induction s with
  | nil => rfl
  | cons c rest ih =>
    rw [List.mem_cons, not_or] at h
    have hc : c ≠ '&' := Ne.symm h.1
    rw [limit?.eq_def]
    simp only [if_neg hc]
    rw [if_neg, ih h.2]
    split
    · exact Nat.not_lt_zero _
    · exact Nat.not_lt_zero _

/-! ## Replacing words -/

/-- Replaces words by texts in one pass from left to right. Of the words that start at the same
place the first one in the list is replaced. -/
def replaceAll (words : List (List Char × List Char)) : List Char → List Char
  | [] => []
  | c :: rest =>
    match words.find? fun e => e.1.isPrefixOf (c :: rest) with
    | some (word, text) => text ++ replaceAll words (rest.drop (word.length - 1))
    | none => c :: replaceAll words rest
termination_by s => s.length
decreasing_by all_goals (simp only [List.length_drop, List.length_cons]; omega)

/-- Replaces words by texts, each word in a pass of its own. -/
def replaceInTurn (words : List (List Char × List Char)) (s : List Char) : List Char :=
  words.foldl (fun s e => replaceAll [e] s) s

section replaceAll

variable {words : List (List Char × List Char)} {word text : List Char} {c : Char} {s : List Char}

theorem replaceAll_nil : replaceAll words [] = [] := by rw [replaceAll]

theorem replaceAll_nil_words (s : List Char) : replaceAll [] s = s := by
  induction s with
  | nil => exact replaceAll_nil
  | cons c rest ih => rw [replaceAll, List.find?_nil, ih]

/-- A character at which no word starts stays. -/
theorem replaceAll_cons (h : (words.find? fun e => e.1.isPrefixOf (c :: s)) = none) :
    replaceAll words (c :: s) = c :: replaceAll words s := by
  rw [replaceAll, h]

/-- The first word in the list at which the text starts is replaced. -/
theorem replaceAll_append
    (h : (words.find? fun e => e.1.isPrefixOf (c :: (word ++ s))) = some (c :: word, text)) :
    replaceAll words (c :: (word ++ s)) = text ++ replaceAll words s := by
  rw [replaceAll, h]
  simp

/-- A word of one character is replaced wherever the character stands. -/
theorem replaceAll_singleton (m : Char) (text s : List Char) :
    replaceAll [([m], text)] s = s.flatMap fun c => if c = m then text else [c] := by
  induction s with
  | nil => exact replaceAll_nil
  | cons c rest ih =>
    rw [List.flatMap_cons, ← ih]
    by_cases hc : c = m
    · rw [if_pos hc]
      have hfound : ([([m], text)].find? fun e => e.1.isPrefixOf (c :: ([] ++ rest))) =
          some ([c], text) := by simp [hc]
      exact replaceAll_append hfound
    · rw [if_neg hc]
      exact replaceAll_cons (by simp [Ne.symm hc])

end replaceAll

end Text

namespace Diagram

open Text

/-! ## Codes -/

/-- The codes of the diagram language, each with what it stands for. -/
def codes : List (List Char × List Char) :=
  [("#amp;".toList, ['&']), ("#lt;".toList, ['<']), ("#gt;".toList, ['>']),
    ("#quot;".toList, ['"']), ("#124;".toList, ['|'])]

/-- The characters that have codes, each with its code. -/
def encodings : List (List Char × List Char) := codes.map Prod.swap

/-- Characters that stay in a label, and do not start a code. -/
def Inner (w : List Char) : Prop := ∀ d ∈ w, d ≠ '#' ∧ d ∉ labelMarks

instance : DecidablePred Inner := fun w =>
  decidable_of_iff (w.all fun d => d != '#' && !labelMarks.contains d) (by simp [Inner])

/-- A code starts with the sign that stands nowhere else in it, and stands for one character. -/
def IsCode (e : List Char × List Char) : Prop :=
  ∃ w m, e = ('#' :: w, [m]) ∧ Inner w ∧ m ∈ labelMarks

theorem isCode_of_mem : ∀ e ∈ codes, IsCode e := by
  intro e he
  simp only [codes, List.mem_cons, List.not_mem_nil, or_false] at he
  rcases he with rfl | rfl | rfl | rfl | rfl
  · exact ⟨_, _, rfl, by decide, by decide⟩
  · exact ⟨_, _, rfl, by decide, by decide⟩
  · exact ⟨_, _, rfl, by decide, by decide⟩
  · exact ⟨_, _, rfl, by decide, by decide⟩
  · exact ⟨_, _, rfl, by decide, by decide⟩

/-- A code that is found starts where it is found. -/
theorem exists_of_find? {words : List (List Char × List Char)} (hwords : ∀ e ∈ words, IsCode e)
    {c : Char} {rest word text : List Char}
    (h : (words.find? fun e => e.1.isPrefixOf (c :: rest)) = some (word, text)) :
    ∃ w m after, word = '#' :: w ∧ text = [m] ∧ c = '#' ∧ rest = w ++ after ∧
      rest.drop (word.length - 1) = after ∧ Inner w ∧ m ∈ labelMarks := by
  obtain ⟨w, m, heq, hw, hm⟩ := hwords _ (List.mem_of_find?_eq_some h)
  obtain ⟨rfl, rfl⟩ := Prod.mk.inj heq
  have hfound := List.find?_some h
  rw [List.isPrefixOf_iff_prefix, List.cons_prefix_cons] at hfound
  obtain ⟨rfl, after, rfl⟩ := hfound
  exact ⟨w, m, after, rfl, rfl, rfl, rfl, by simp, hw, hm⟩

/-- If a change to a text keeps the parts of codes that it starts with, the same code is found
behind a character. -/
theorem find?_code_congr {words : List (List Char × List Char)} (hwords : ∀ e ∈ words, IsCode e)
    {s s' : List Char} (h : ∀ w, Inner w → (w <+: s' ↔ w <+: s)) (c : Char) :
    (words.find? fun e => e.1.isPrefixOf (c :: s'))
      = words.find? fun e => e.1.isPrefixOf (c :: s) := by
  induction words with
  | nil => rfl
  | cons e words ih =>
    obtain ⟨w, m, rfl, hw, -⟩ := hwords e List.mem_cons_self
    have hsame : ('#' :: w).isPrefixOf (c :: s') = ('#' :: w).isPrefixOf (c :: s) := by
      rw [Bool.eq_iff_iff, List.isPrefixOf_iff_prefix, List.isPrefixOf_iff_prefix,
        List.cons_prefix_cons, List.cons_prefix_cons, h w hw]
    rw [List.find?_cons, List.find?_cons, hsame,
      ih fun e he => hwords e (List.mem_cons_of_mem _ he)]

/-- No code starts inside another one. -/
theorem replaceAll_inner {words : List (List Char × List Char)} (hwords : ∀ e ∈ words, IsCode e)
    {w : List Char} (hw : Inner w) (s : List Char) :
    replaceAll words (w ++ s) = w ++ replaceAll words s := by
  induction w with
  | nil => rfl
  | cons d w ih =>
    have hnone : (words.find? fun e => e.1.isPrefixOf (d :: (w ++ s))) = none := by
      rw [List.find?_eq_none]
      intro e he
      obtain ⟨w', m, rfl, -, -⟩ := hwords e he
      have hd : '#' ≠ d := Ne.symm (hw d List.mem_cons_self).1
      simp [hd]
    have hrest : Inner w := fun d' hd' => hw d' (List.mem_cons_of_mem _ hd')
    rw [List.cons_append, replaceAll_cons hnone, ih hrest]
    rfl

/-- Replacing codes makes no new parts of codes. -/
theorem inner_prefix_replaceAll {words : List (List Char × List Char)}
    (hwords : ∀ e ∈ words, IsCode e) {w : List Char} (hw : Inner w) (s : List Char) :
    w <+: replaceAll words s ↔ w <+: s := by
  constructor
  · intro h
    induction w generalizing s with
    | nil => exact List.nil_prefix
    | cons d w ih =>
      obtain ⟨-, hmark⟩ := hw d List.mem_cons_self
      cases s with
      | nil => rwa [replaceAll_nil] at h
      | cons c rest =>
        rw [replaceAll] at h
        split at h
        · -- the text of a code is no character of a code
          rename_i word text hfound
          obtain ⟨-, m, -, -, rfl, -, -, -, -, hm⟩ := exists_of_find? hwords hfound
          rw [List.singleton_append, List.cons_prefix_cons] at h
          exact absurd (h.1 ▸ hm) hmark
        · rw [List.cons_prefix_cons] at h ⊢
          exact ⟨h.1, ih (fun d' hd' => hw d' (List.mem_cons_of_mem _ hd')) rest h.2⟩
  · rintro ⟨rest, rfl⟩
    rw [replaceAll_inner hwords hw]
    exact List.prefix_append _ _

/-- Replacing one code first and the others in a second pass is replacing them all in one pass. -/
theorem replaceAll_replaceAll {e : List Char × List Char} {words : List (List Char × List Char)}
    (he : IsCode e) (hwords : ∀ e ∈ words, IsCode e) (s : List Char) :
    replaceAll words (replaceAll [e] s) = replaceAll (e :: words) s := by
  have hone : ∀ f ∈ [e], IsCode f := fun f hf => List.mem_singleton.mp hf ▸ he
  have hall : ∀ f ∈ e :: words, IsCode f := List.forall_mem_cons.mpr ⟨he, hwords⟩
  fun_induction replaceAll (e :: words) s with
  | case1 => rw [replaceAll_nil, replaceAll_nil]
  | case2 c rest word text hfound ih =>
    obtain ⟨w, m, after, rfl, rfl, rfl, rfl, hafter, hw, hm⟩ := exists_of_find? hall hfound
    rw [hafter] at ih ⊢
    rw [List.find?_cons] at hfound
    split at hfound
    · -- the code that goes first stands here, and what it stands for starts no other one
      have hmark : (words.find? fun f => f.1.isPrefixOf (m :: replaceAll [e] after)) = none := by
        rw [List.find?_eq_none]
        intro f hf
        obtain ⟨w', m', rfl, -, -⟩ := hwords f hf
        have hm : '#' ≠ m := fun h => absurd (h ▸ hm) (by decide)
        simp [hm]
      obtain rfl : e = ('#' :: w, [m]) := Option.some.inj hfound
      have hfirst : ([('#' :: w, [m])].find? fun f => f.1.isPrefixOf ('#' :: (w ++ after))) =
          some ('#' :: w, [m]) := by simp
      rw [replaceAll_append hfirst, List.singleton_append, replaceAll_cons hmark, ih,
        List.singleton_append]
    · -- another code stands here, and it still does after the first pass
      rename_i hfirst
      have hkept : replaceAll [e] ('#' :: (w ++ after)) = '#' :: (w ++ replaceAll [e] after) := by
        rw [replaceAll_cons (by simp [hfirst]), replaceAll_inner hone hw]
      have hstill : ∀ v, Inner v → (v <+: w ++ replaceAll [e] after ↔ v <+: w ++ after) := by
        intro v hv
        rw [← replaceAll_inner hone hw, inner_prefix_replaceAll hone hv]
      rw [hkept, replaceAll_append (by rw [find?_code_congr hwords hstill]; exact hfound), ih]
  | case3 c rest hnone ih =>
    rw [List.find?_cons] at hnone
    split at hnone
    · cases hnone
    · rename_i hfirst
      rw [replaceAll_cons (by simp [hfirst]), replaceAll_cons, ih]
      rw [find?_code_congr hwords fun v hv => inner_prefix_replaceAll hone hv rest, hnone]

/-- It makes no difference whether the codes are read in one pass or in a pass for each. -/
theorem replaceInTurn_codes {words : List (List Char × List Char)} (hwords : ∀ e ∈ words, IsCode e)
    (s : List Char) : replaceInTurn words s = replaceAll words s := by
  induction words generalizing s with
  | nil => exact (replaceAll_nil_words s).symm
  | cons e words ih =>
    obtain ⟨he, hrest⟩ := List.forall_mem_cons.mp hwords
    show replaceInTurn words (replaceAll [e] s) = _
    rw [ih hrest, replaceAll_replaceAll he hrest]

/-! ## Labels -/

/-- A character that is no mark is written as it is. -/
theorem labelChar_eq_self {c : Char} (h : c ∉ labelMarks) : labelChar c = [c] := by
  rw [labelChar.eq_def]
  split
  · exact absurd (by decide) h
  · exact absurd (by decide) h
  · exact absurd (by decide) h
  · exact absurd (by decide) h
  · exact absurd (by decide) h
  · rfl

theorem flatMap_labelChar_eq_self {s : List Char} (h : ∀ c ∈ s, c ∉ labelMarks) :
    s.flatMap labelChar = s := by
  rw [List.flatMap_congr fun c hc => labelChar_eq_self (h c hc), List.flatMap_singleton']

/-- A mark is written as its code. -/
theorem exists_code {c : Char} (h : c ∈ labelMarks) : (labelChar c, [c]) ∈ codes := by
  have hall : labelMarks.all fun c => (labelChar c, [c]) ∈ codes := by decide
  exact of_decide_eq_true (List.all_eq_true.mp hall c h)

/-- Five replacements in turn write what a label is written with. The ampersand comes first, but
none of the other four would find a mark in its code. -/
theorem replaceInTurn_encodings (s : List Char) :
    replaceInTurn encodings s = s.flatMap labelChar := by
  simp only [replaceInTurn, encodings, codes, List.map_cons, List.map_nil, Prod.swap_prod_mk,
    List.foldl_cons, List.foldl_nil, replaceAll_singleton, List.flatMap_assoc]
  refine List.flatMap_congr fun c _ => ?_
  by_cases hc : c ∈ labelMarks
  · simp only [labelMarks, List.mem_cons, List.not_mem_nil, or_false] at hc
    rcases hc with rfl | rfl | rfl | rfl | rfl
    all_goals rfl
  · rw [labelChar_eq_self hc]
    simp only [labelMarks, List.mem_cons, List.not_mem_nil, or_false, not_or] at hc
    obtain ⟨hamp, hlt, hgt, hquot, hbar⟩ := hc
    simp only [if_neg hamp, if_neg hlt, if_neg hgt, if_neg hquot, if_neg hbar,
      List.flatMap_singleton]

/-- Writing the codes makes no new parts of codes. -/
theorem inner_prefix_flatMap {w : List Char} (hw : Inner w) (s : List Char) :
    w <+: s.flatMap labelChar ↔ w <+: s := by
  induction w generalizing s with
  | nil => simp
  | cons d w ih =>
    obtain ⟨hsign, hmark⟩ := hw d List.mem_cons_self
    cases s with
    | nil => rfl
    | cons c rest =>
      rw [List.flatMap_cons, List.cons_prefix_cons]
      by_cases hc : c ∈ labelMarks
      · obtain ⟨w', m, heq, -, -⟩ := isCode_of_mem _ (exists_code hc)
        rw [(Prod.mk.inj heq).1, List.cons_append, List.cons_prefix_cons]
        exact ⟨fun h => absurd h.1 hsign, fun h => absurd (h.1 ▸ hc) hmark⟩
      · rw [labelChar_eq_self hc, List.singleton_append, List.cons_prefix_cons,
          ih fun d' hd' => hw d' (List.mem_cons_of_mem _ hd')]

/-- No code is the start of another one. -/
theorem find?_code {e : List Char × List Char} (he : e ∈ codes) (s : List Char) :
    (codes.find? fun f => f.1.isPrefixOf (e.1 ++ s)) = some e := by
  simp only [codes, List.mem_cons, List.not_mem_nil, or_false] at he
  rcases he with rfl | rfl | rfl | rfl | rfl
  all_goals rfl

/-- Reading the codes of a label gives what reading those of the text itself gives. -/
theorem replaceAll_flatMap (s : List Char) :
    replaceAll codes (s.flatMap labelChar) = replaceAll codes s := by
  fun_induction replaceAll codes s with
  | case1 => exact replaceAll_nil
  | case2 c rest word text hfound ih =>
    obtain ⟨w, m, after, rfl, rfl, rfl, rfl, hafter, hw, -⟩ := exists_of_find? isCode_of_mem hfound
    rw [hafter] at ih ⊢
    -- a code has no marks, so it is written as it is
    have hkept : ('#' :: (w ++ after)).flatMap labelChar =
        '#' :: (w ++ after.flatMap labelChar) := by
      rw [List.flatMap_cons, labelChar_eq_self (by decide), List.flatMap_append,
        flatMap_labelChar_eq_self fun d hd => (hw d hd).2]
      rfl
    have hstill : ∀ v, Inner v → (v <+: w ++ after.flatMap labelChar ↔ v <+: w ++ after) := by
      intro v hv
      rw [← inner_prefix_flatMap hv (w ++ after), List.flatMap_append,
        flatMap_labelChar_eq_self fun d hd => (hw d hd).2]
    rw [hkept, replaceAll_append (by rw [find?_code_congr isCode_of_mem hstill]; exact hfound), ih]
  | case3 c rest hnone ih =>
    rw [List.flatMap_cons]
    by_cases hc : c ∈ labelMarks
    · have hcode := exists_code hc
      obtain ⟨w, m, heq, -, -⟩ := isCode_of_mem _ hcode
      obtain ⟨hw, -⟩ := Prod.mk.inj heq
      have hfound := find?_code hcode (rest.flatMap labelChar)
      rw [hw] at hfound ⊢
      rw [List.cons_append] at hfound ⊢
      rw [replaceAll_append hfound, ih, List.singleton_append]
    · rw [labelChar_eq_self hc, List.singleton_append, replaceAll_cons, ih]
      rw [find?_code_congr isCode_of_mem fun v hv => inner_prefix_flatMap hv rest, hnone]

/-- Reading codes changes every text that holds one. -/
theorem replaceAll_eq_self_iff {words : List (List Char × List Char)}
    (hwords : ∀ e ∈ words, IsCode e) (s : List Char) :
    replaceAll words s = s ↔ ∀ e ∈ words, ¬e.1 <:+: s := by
  fun_induction replaceAll words s with
  | case1 =>
    refine iff_of_true rfl fun e he hinfix => ?_
    obtain ⟨w, m, rfl, -, -⟩ := hwords e he
    exact absurd (List.infix_nil.mp hinfix) (List.cons_ne_nil _ _)
  | case2 c rest word text hfound ih =>
    obtain ⟨w, m, after, rfl, rfl, rfl, rfl, -, -, hm⟩ := exists_of_find? hwords hfound
    refine iff_of_false (fun h => ?_) fun h => h _ (List.mem_of_find?_eq_some hfound) ?_
    · obtain rfl := (List.cons.inj h).1
      exact absurd hm (by decide)
    · exact (List.prefix_append _ _).isInfix
  | case3 c rest hnone ih =>
    rw [List.find?_eq_none] at hnone
    rw [List.cons_inj_right, ih]
    refine forall₂_congr fun e he => ?_
    have hstart : ¬e.1 <+: c :: rest := by
      rw [← List.isPrefixOf_iff_prefix]
      exact hnone e he
    rw [List.infix_cons_iff, or_iff_right hstart]

/-- A label is well-spaced. -/
theorem wellSpaced_labelText (text : String) : WellSpaced (labelText text).toList := by
  rw [labelText, String.toList_ofList]
  refine (wellSpaced_trim_squeeze _).flatMap fun c => ?_
  by_cases hc : c ∈ labelMarks
  · obtain ⟨w, m, heq, -, -⟩ := isCode_of_mem _ (exists_code hc)
    refine .inr ⟨(Prod.mk.inj heq).1 ▸ List.cons_ne_nil _ _, fun d hd hblank => ?_⟩
    obtain rfl := (mem_labelChar hd).2 hblank
    exact (mem_labelChar hd).1 hc
  · exact .inl (labelChar_eq_self hc)

/-- What the codes of labels do, for every text.

* The label of a text has none of the five characters with codes, its blanks are single spaces
  inside, and a second escape finds nothing to do in it, nor a number over the limit.
* It is what five replacements of characters by codes make of the visible text. To replace the five
  codes back is the same in one pass from left to right as in five passes, and it gives the visible
  text again just if that holds none of the codes itself. -/
theorem labelText_codes (text : String) :
    (∀ c ∈ (labelText text).toList, c ∉ labelMarks) ∧
    WellSpaced (labelText text).toList ∧
    labelText (labelText text) = labelText text ∧
    labelLimit? (labelText text) = none ∧
    (labelText text).toList = replaceInTurn encodings (visibleText text.toList) ∧
    replaceInTurn codes (labelText text).toList = replaceAll codes (labelText text).toList ∧
    (replaceAll codes (labelText text).toList = visibleText text.toList ↔
      ∀ e ∈ codes, ¬e.1 <:+: visibleText text.toList) := by
  have hmarks : ∀ c ∈ (labelText text).toList, c ∉ labelMarks :=
    fun c hc => (clean_labelText text c hc).1
  have hspaced := wellSpaced_labelText text
  have hreferences : '&' ∉ (labelText text).toList := fun hc => hmarks _ hc (by decide)
  have hwritten : (labelText text).toList = (visibleText text.toList).flatMap labelChar := by
    rw [labelText, String.toList_ofList]
  refine ⟨hmarks, hspaced, ?_, CharRef.limit?_eq_none hreferences, ?_,
    replaceInTurn_codes isCode_of_mem _, ?_⟩
  · rw [labelText, visibleText, CharRef.decode_eq_self hreferences, hspaced.squeeze_eq,
      hspaced.trim_eq, flatMap_labelChar_eq_self hmarks, String.ofList_toList]
  · rw [hwritten, replaceInTurn_encodings]
  · rw [hwritten, replaceAll_flatMap, replaceAll_eq_self_iff isCode_of_mem]

end Diagram

end Flowchart
