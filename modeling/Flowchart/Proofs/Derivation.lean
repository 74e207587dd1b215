import Mathlib.Data.List.TakeWhile
import Flowchart.Proofs.Entries
import Flowchart.Proofs.Grammar

/-!
# What is read is a document

The readers take nothing but what the grammar derives.

* `Reads` says so of one result: a good value and a derivation, or a limit with a number that is
  too long. `Reads.bind` goes along the readers;
* `reads_stringBody` and `reads_number` are the two readers that do not nest, and `reads_all`
  follows the others by induction on their steps;
* the objects that are read have texts for keys, each of them once: `AreNamed.textKeyed`;
* `document_spec` is the result for a whole text.
-/

namespace Flowchart.Json

/-! ## What is taken is derived -/

/-- What a reader may give for `s`: a good result, and `rest` as `p` says. It fails for a limit only
at a number that is too long. -/
def Reads {α : Type} (p : List Char → List Char → Prop) (good : α → Prop) (s : List Char) :
    Except Fault (α × List Char) → Prop
  | .ok (a, rest) => p s rest ∧ good a
  | .error (.limit _) => HasLongNumber s
  | .error (.before _ _) => True

section Reads

variable {α β : Type} {p q : List Char → List Char → Prop} {good : α → Prop} {good' : β → Prop}
  {s t : List Char}

theorem reads_fault (problem : Problem) (rest : List Char) :
    Reads p good s (fault problem rest) := trivial

theorem reads_pure {a : α} {rest : List Char} (h : p s rest) (ha : good a) :
    Reads p good s (pure (a, rest)) := ⟨h, ha⟩

theorem Reads.bind {r : Except Fault (α × List Char)}
    {f : α × List Char → Except Fault (β × List Char)} (h : Reads p good s r) (hs : s <:+ t)
    (hf : ∀ a rest, p s rest → good a → Reads q good' t (f (a, rest))) :
    Reads q good' t (r >>= f) := by
  cases r with
  | ok x => exact hf x.1 x.2 h.1 h.2
  | error e =>
    cases e with
    | limit e => exact HasLongNumber.of_suffix h hs
    | before _ _ => trivial

theorem Reads.imp {good' : α → Prop} {r : Except Fault (α × List Char)} (h : Reads p good s r)
    (hp : ∀ rest, p s rest → q s rest) (hgood : ∀ a, good a → good' a) :
    Reads q good' s r := by
  cases r with
  | ok x => exact ⟨hp _ h.1, hgood _ h.2⟩
  | error e =>
    cases e with
    | limit e => exact h
    | before _ _ => trivial

end Reads

theorem spaces_skipSpace (s : List Char) : Spaces s (skipSpace s) := by
  induction s with
  | nil => exact .nil []
  | cons c s ih =>
    by_cases h : isSpace c
    · rw [skipSpace, List.dropWhile_cons_of_pos h]
      exact .cons h ih
    · rw [skipSpace, List.dropWhile_cons_of_neg h]
      exact .nil (c :: s)

/-! ### Strings -/

theorem codeUnit_eq_ok {s : List Char} {n : Nat} (h : codeUnit ('u' :: s) = .ok n) :
    (s.take 4).length = 4 ∧ ∀ c ∈ s.take 4, Text.CharRef.isHexDigit c := by
  rw [codeUnit] at h
  split at h
  · cases h
  · rename_i hgood
    simp only [List.drop_succ_cons, List.drop_zero, Bool.or_eq_true, List.isEmpty_iff,
      List.drop_eq_nil_iff, Bool.not_eq_true', not_or, Bool.not_eq_false, List.all_eq_true] at hgood
    exact ⟨by rw [List.length_take]; omega, hgood.2⟩

theorem Chars.of_codeUnit {s rest : List Char} {n : Nat} (hn : codeUnit ('u' :: s) = .ok n)
    (h : Chars (s.drop 4) rest) : Chars ('\\' :: 'u' :: s) rest := by
  obtain ⟨hlength, hhex⟩ := codeUnit_eq_ok hn
  have hescape := Chars.unicode hlength hhex h
  rwa [List.take_append_drop] at hescape

theorem codeUnit_ne_limit (s : List Char) (e : Decimal.LimitError) :
    codeUnit s ≠ .error (.limit e) := by
  rw [Json.codeUnit]
  split
  · simp [fault]
  · simp [pure, Except.pure]

/-- An escape is one code unit, or two that form a pair. -/
theorem unicodeEscape_eq_ok {s : List Char} {c : Char} {n : Nat}
    (h : unicodeEscape ('u' :: s) = .ok (c, n)) :
    (∃ high, codeUnit ('u' :: s) = .ok high) ∧ (n = 5 ∨ n = 11 ∧
      ∃ t low, s.drop 4 = '\\' :: 'u' :: t ∧ codeUnit ('u' :: t) = .ok low) := by
  rw [unicodeEscape] at h
  cases hhigh : codeUnit ('u' :: s) with
  | error e => simp [hhigh, bind, Except.bind] at h
  | ok high =>
    refine ⟨⟨high, rfl⟩, ?_⟩
    simp only [hhigh, bind, Except.bind, pure, Except.pure] at h
    split at h
    · rename_i hpair
      simp only [List.drop_succ_cons, Bool.and_eq_true, beq_iff_eq] at hpair
      obtain ⟨⟨-, hnext⟩, -⟩ := hpair
      obtain ⟨t, ht⟩ : ∃ t, s.drop 4 = '\\' :: 'u' :: t := by
        refine ⟨(s.drop 4).drop 2, (List.take_append_drop 2 (s.drop 4)).symm.trans ?_⟩
        rw [hnext]
        rfl
      have hdrop : List.drop 1 (List.drop 5 ('u' :: s)) = 'u' :: t := by
        rw [List.drop_succ_cons, ht]
        rfl
      rw [hdrop] at h
      cases hlow : codeUnit ('u' :: t) with
      | error e => simp [hlow] at h
      | ok low =>
        simp only [hlow] at h
        split at h
        · exact Or.inr ⟨(Prod.mk.inj (Except.ok.inj h)).2.symm, t, low, ht, hlow⟩
        · exact Or.inl (Prod.mk.inj (Except.ok.inj h)).2.symm
    · exact Or.inl (Prod.mk.inj (Except.ok.inj h)).2.symm

theorem unicodeEscape_ne_limit (s : List Char) (e : Decimal.LimitError) :
    unicodeEscape s ≠ .error (.limit e) := by
  intro h
  rw [unicodeEscape] at h
  cases hhigh : codeUnit s with
  | error e' =>
    simp only [hhigh, bind, Except.bind, Except.error.injEq] at h
    exact codeUnit_ne_limit s e (h ▸ hhigh)
  | ok high =>
    simp only [hhigh, bind, Except.bind, pure, Except.pure] at h
    split at h
    · cases hlow : codeUnit ((s.drop 5).drop 1) with
      | error e' =>
        simp only [hlow, Except.error.injEq] at h
        exact codeUnit_ne_limit _ e (h ▸ hlow)
      | ok low =>
        simp only [hlow] at h
        split at h <;> cases h
    · cases h

theorem mem_letters_of_escapedChar? {c e : Char} (h : escapedChar? c = some e) :
    c ∈ ['"', '\\', '/', 'b', 'f', 'n', 'r', 't'] := by
  unfold escapedChar? at h
  split at h
  all_goals first | decide | cases h

/-- What follows an escape in a string, with the escape in front. -/
theorem Chars.of_escape {opening s rest : List Char} {c : Char} {n : Nat}
    (h : Json.escape opening s = .ok (c, n)) (hrest : Chars (s.drop n) rest) :
    Chars ('\\' :: s) rest := by
  unfold Json.escape at h
  split at h
  · cases h
  · rename_i s
    obtain ⟨⟨high, hhigh⟩, rfl | ⟨rfl, t, low, ht, hlow⟩⟩ := unicodeEscape_eq_ok h
    · exact hrest.of_codeUnit hhigh
    · refine Chars.of_codeUnit hhigh (ht ▸ Chars.of_codeUnit hlow ?_)
      have hdrop : List.drop 11 ('u' :: s) = (s.drop 4).drop 6 := by
        rw [List.drop_drop, List.drop_succ_cons]
      rwa [hdrop, ht] at hrest
  · split at h
    · rename_i e he
      cases h
      exact .escape (mem_letters_of_escapedChar? he) hrest
    · cases h

theorem escape_ne_limit (opening s : List Char) (e : Decimal.LimitError) :
    escape opening s ≠ .error (.limit e) := by
  unfold escape
  split
  · simp [fault]
  · exact unicodeEscape_ne_limit _ e
  · split
    · simp [pure, Except.pure]
    · simp [fault]

theorem reads_stringBody (opening s : List Char) :
    Reads Chars (fun _ => True) s (stringBody opening s) := by
  fun_induction stringBody opening s with
  | case1 => exact reads_fault _ _
  | case2 rest => exact reads_pure (.close rest) trivial
  | case3 rest ih =>
    cases h : escape opening rest with
    | error e =>
      cases e with
      | limit e => exact absurd h (escape_ne_limit opening rest e)
      | before _ _ => trivial
    | ok x =>
      obtain ⟨c, n⟩ := x
      refine (ih n).bind ((List.drop_suffix _ _).trans (List.suffix_cons _ _))
        fun text rest' hchars _ => reads_pure (hchars.of_escape h) trivial
  | case4 => exact reads_fault _ _
  | case5 c rest hquote hbackslash rest' hprinted ih =>
    refine ih.bind (List.suffix_cons _ _) fun text rest' hchars _ => reads_pure ?_ trivial
    exact .plain (Nat.le_of_not_lt hprinted) hquote hbackslash hchars

/-! ### Numbers -/

/-- The text behind the digits of a whole number. -/
def afterWhole (s : List Char) : List Char := s.drop (wholeDigits s).length

/-- The text behind a fraction, or the text if there is none. -/
def afterFraction (s : List Char) : List Char :=
  if (fractionDigits s).isEmpty then s else s.drop (1 + (fractionDigits s).length)

/-- The text behind an exponent, or the text if there is none. -/
def afterExponent (s : List Char) : List Char := s.drop ((exponentPart s).getD (0, 0)).2

/-- `u` is the text without a minus in front. -/
def IsUnsigned (s u : List Char) : Prop := (s.head? ≠ some '-' ∧ s = u) ∨ s = '-' :: u

theorem exists_isUnsigned (s : List Char) : ∃ u, IsUnsigned s u := by
  by_cases h : s.head? = some '-'
  · obtain ⟨u, hu⟩ := List.head?_eq_some_iff.mp h
    exact ⟨u, Or.inr hu⟩
  · exact ⟨s, Or.inl ⟨h, rfl⟩⟩

section number

variable {s u : List Char}

theorem number_of_no_digits (hu : IsUnsigned s u) (h : wholeDigits u = []) :
    number s = fault .value s := by
  rcases hu with ⟨hminus, rfl⟩ | rfl
  · rw [number]
    · simp [h]
    · rintro r rfl
      exact hminus rfl
  · rw [number]
    simp [h]

/-- The number that has been found at the start of a text, and the text from its exponent on. -/
def numberOf (negative : Bool) (whole fraction : List Char) (exponent? : Option (Int × Nat))
    (rest : List Char) : Except Fault (Value × List Char) :=
  match fraction, exponent? with
  | [], none =>
    if Decimal.maxDigits < whole.length then .error (.limit (.reading whole.length))
    else
      let n : Int := Decimal.ofDigits whole
      pure (.int (if negative then -n else n), rest)
  | fraction, exponent? =>
    let (exponent, length) := exponent?.getD (0, 0)
    pure (.float (Decimal.signed negative (Decimal.ofLiteral whole fraction exponent)),
      rest.drop length)

theorem number_of_digits (hu : IsUnsigned s u) (h : wholeDigits u ≠ []) :
    ∃ negative, number s = numberOf negative (wholeDigits u) (fractionDigits (afterWhole u))
      (exponentPart (afterFraction (afterWhole u))) (afterFraction (afterWhole u)) := by
  have hsome : (wholeDigits u).isEmpty = false := by simpa using h
  rcases hu with ⟨hminus, rfl⟩ | rfl
  · refine ⟨false, ?_⟩
    rw [number]
    · simp only [hsome]
      rfl
    · rintro r rfl
      exact hminus rfl
  · refine ⟨true, ?_⟩
    rw [number]
    simp only [hsome]
    rfl

/-- A number is a value without keys, or an integer with too many digits. -/
theorem numberOf_cases (negative : Bool) (whole fraction : List Char) (s : List Char) :
    (Decimal.maxDigits < whole.length ∧
        ∃ e, numberOf negative whole fraction (exponentPart s) s = .error (.limit e)) ∨
      ∃ v : Value, v.entries? = none ∧
        numberOf negative whole fraction (exponentPart s) s = .ok (v, afterExponent s) := by
  unfold numberOf afterExponent
  split
  · rename_i hnone
    rw [hnone]
    split
    · rename_i hlong
      exact Or.inl ⟨hlong, _, rfl⟩
    · exact Or.inr ⟨_, rfl, rfl⟩
  · exact Or.inr ⟨_, rfl, rfl⟩

end number

theorem digits_takeWhile {s : List Char} (h : s.takeWhile Char.isDigit ≠ []) :
    Digits s (s.drop (s.takeWhile Char.isDigit).length) :=
  ⟨_, h, fun _ hc => List.mem_takeWhile_imp hc,
    (List.prefix_iff_eq_append.mp (List.takeWhile_prefix _)).symm⟩

theorem wholeDigits_append_afterWhole (s : List Char) : wholeDigits s ++ afterWhole s = s := by
  unfold afterWhole wholeDigits
  split
  · rfl
  · exact List.prefix_iff_eq_append.mp (List.takeWhile_prefix _)

theorem isDigit_of_mem_wholeDigits {s : List Char} {c : Char} (h : c ∈ wholeDigits s) :
    c.isDigit := by
  unfold wholeDigits at h
  split at h
  · rw [List.mem_singleton.mp h]
    rfl
  · exact List.mem_takeWhile_imp h

theorem whole_afterWhole {s : List Char} (h : wholeDigits s ≠ []) : Whole s (afterWhole s) := by
  unfold afterWhole wholeDigits at *
  split
  · exact .zero _
  · rename_i hzero
    refine .digits ?_ (digits_takeWhile (by simpa [hzero] using h))
    intro hhead
    obtain ⟨t, ht⟩ := List.head?_eq_some_iff.mp hhead
    exact hzero t ht

theorem fraction_afterFraction (s : List Char) : Fraction s (afterFraction s) := by
  unfold afterFraction fractionDigits
  split
  · rename_i s
    split
    · exact .none _
    · rename_i hdigits
      rw [Nat.add_comm, List.drop_succ_cons]
      exact .some (digits_takeWhile (by simpa using hdigits))
  · exact .none _

theorem exists_sign (s : List Char) :
    ∃ sign ∈ [[], ['+'], ['-']], s = sign ++ (Decimal.splitSign s).2 := by
  unfold Decimal.splitSign
  split
  · exact ⟨['-'], by simp, rfl⟩
  · exact ⟨['+'], by simp, rfl⟩
  · exact ⟨[], by simp, rfl⟩

theorem exponent_afterExponent (s : List Char) : Exponent s (afterExponent s) := by
  unfold afterExponent exponentPart
  split
  · exact .none _
  · rename_i e s
    obtain ⟨sign, hsign, hs⟩ := exists_sign s
    dsimp only
    generalize (Decimal.splitSign s).2 = after at hs ⊢
    split
    · rename_i h
      simp only [Bool.and_eq_true, Bool.or_eq_true, beq_iff_eq, Bool.not_eq_true',
        List.isEmpty_eq_false_iff] at h
      obtain ⟨hletter, hdigits⟩ := h
      subst hs
      have hdrop : List.drop (1 + ((sign ++ after).length - after.length)
          + (after.takeWhile Char.isDigit).length) (e :: (sign ++ after))
            = after.drop (after.takeWhile Char.isDigit).length := by
        rw [List.length_append, Nat.add_sub_cancel, Nat.add_assoc, Nat.add_comm 1,
          List.drop_succ_cons, List.drop_length_add_append]
      rw [Option.getD_some, hdrop]
      exact .some hletter hsign (digits_takeWhile hdigits)
    · exact .none _

theorem reads_number (s : List Char) :
    Reads Number (fun v => v.entries? = none) s (number s) := by
  obtain ⟨u, hu⟩ := exists_isUnsigned s
  by_cases hwhole : wholeDigits u = []
  · rw [number_of_no_digits hu hwhole]
    exact reads_fault _ _
  · have hsuffix : u <:+ s := by
      rcases hu with ⟨-, rfl⟩ | rfl
      · exact List.suffix_refl _
      · exact List.suffix_cons _ _
    obtain ⟨negative, hnumber⟩ := number_of_digits hu hwhole
    rw [hnumber]
    rcases numberOf_cases negative (wholeDigits u) (fractionDigits (afterWhole u))
      (afterFraction (afterWhole u)) with ⟨hlong, e, he⟩ | ⟨v, hv, hread⟩
    · rw [he]
      have hdigits : HasLongNumber u := ⟨_,
        ⟨[], _, wholeDigits_append_afterWhole u⟩, fun c hc => isDigit_of_mem_wholeDigits hc, hlong⟩
      exact HasLongNumber.of_suffix hdigits hsuffix
    · rw [hread]
      have hunsigned : Unsigned u (afterExponent (afterFraction (afterWhole u))) :=
        ⟨whole_afterWhole hwhole, fraction_afterFraction _, exponent_afterExponent _⟩
      refine ⟨?_, hv⟩
      rcases hu with ⟨-, rfl⟩ | rfl
      · exact .plain hunsigned
      · exact .minus hunsigned

/-! ### Values -/

theorem derives_of_word? {s rest : List Char} {v : Value} (h : word? s = some (v, rest)) :
    Derives .value s rest ∧ v.entries? = none := by
  obtain ⟨⟨w, v'⟩, hmem, hw⟩ := List.exists_of_findSome?_eq_some h
  dsimp only at hw
  split at hw
  · rename_i hprefix
    cases hw
    obtain ⟨t, rfl⟩ := List.isPrefixOf_iff_prefix.mp hprefix
    have hdrop : (w.toList ++ t).drop w.length = t := List.drop_left' String.length_toList
    have hwords : ∀ e ∈ words, e.1 ∈ keywords ∧ e.2.entries? = none := by
      intro e he
      simp only [words, List.mem_cons, List.not_mem_nil, or_false] at he
      rcases he with rfl | rfl | rfl | rfl | rfl | rfl
      all_goals exact ⟨by decide, rfl⟩
    rw [hdrop]
    exact ⟨.word t (hwords _ hmem).1, (hwords _ hmem).2⟩
  · cases hw

/-- Values with texts for keys, as the entries of an object. -/
def named (t : Table String Value) : List (Value × Value) := t.map fun e => (.str e.1, e.2)

theorem put_named (t : Table String Value) (k : String) (v : Value) :
    Table.put (named t) (.str k) v = named (t.put k v) := by
  induction t with
  | nil => rfl
  | cons e rest ih =>
    obtain ⟨k', v'⟩ := e
    have hcons : named ((k', v') :: rest) = (.str k', v') :: named rest := rfl
    rw [hcons, Table.put, Table.put, Value.str_beq_str]
    split
    · rfl
    · rw [ih]
      rfl

theorem ofEntries_named (t : Table String Value) :
    Table.ofEntries (named t) = named (Table.ofEntries t) := by
  have hfold : ∀ (t : Table String Value) (before : Table String Value),
      (named t).foldl (fun t e => Table.put t e.1 e.2) (named before)
        = named (t.foldl (fun t e => t.put e.1 e.2) before) := by
    intro t
    induction t with
    | nil => exact fun _ => rfl
    | cons e rest ih =>
      intro before
      rw [List.foldl_cons, ← ih, ← put_named]
      rfl
  exact hfold t []

/-- Entries as they are read: their keys are texts. -/
def AreNamed (entries : List (Value × Value)) : Prop :=
  ∃ t, entries = named t ∧ ∀ e ∈ t, Value.TextKeyed e.2

theorem AreNamed.textKeyed {entries : List (Value × Value)} (h : AreNamed entries) :
    (Value.ofEntries entries).TextKeyed := by
  obtain ⟨t, rfl, ht⟩ := h
  obtain ⟨hnodup, hmem⟩ := Table.ofEntries_spec t
  rw [Value.ofEntries, ofEntries_named]
  refine .map ?_ ?_ ?_
  · intro e he
    obtain ⟨e', -, rfl⟩ := List.mem_map.mp he
    exact ⟨e'.1, rfl⟩
  · rw [named, List.map_map]
    exact hnodup
  · intro e he
    obtain ⟨e', he', rfl⟩ := List.mem_map.mp he
    exact ht e' (hmem e' he')

theorem AreNamed.cons {entries : List (Value × Value)} (h : AreNamed entries) (name : String)
    {v : Value} (hv : v.TextKeyed) : AreNamed ((.str name, v) :: entries) := by
  obtain ⟨t, rfl, ht⟩ := h
  exact ⟨(name, v) :: t, rfl, List.forall_mem_cons.mpr ⟨hv, ht⟩⟩

theorem areNamed_nil : AreNamed [] := ⟨[], rfl, fun _ he => absurd he List.not_mem_nil⟩

theorem reads_value (fuel : Nat)
    (hm : ∀ s, Reads (Derives .members) AreNamed s (members fuel s))
    (he : ∀ s, Reads (Derives .elements) (fun _ => True) s (elements fuel s)) (s : List Char) :
    Reads (Derives .value) Value.TextKeyed s (value (fuel + 1) s) := by
  rw [value.eq_def]
  dsimp only
  split
  · rename_i r
    exact (reads_stringBody _ r).bind (List.suffix_cons _ _) fun text rest h _ =>
      reads_pure (.string h) (.other rfl)
  · rename_i r
    have hspace := spaces_skipSpace r
    split
    · rename_i rest heq
      rw [heq] at hspace
      exact reads_pure (.emptyObject hspace) (AreNamed.textKeyed areNamed_nil)
    · refine (hm _).bind (hspace.suffix.trans (List.suffix_cons _ _)) fun entries rest h hnamed =>
        reads_pure (.object hspace h) hnamed.textKeyed
  · rename_i r
    have hspace := spaces_skipSpace r
    split
    · rename_i rest heq
      rw [heq] at hspace
      exact reads_pure (.emptyArray hspace) (.other rfl)
    · exact (he _).bind (hspace.suffix.trans (List.suffix_cons _ _)) fun items rest h _ =>
        reads_pure (.array hspace h) (.other rfl)
  · split
    · rename_i found hfound
      obtain ⟨hderives, hnone⟩ := derives_of_word? hfound
      exact reads_pure hderives (.other hnone)
    · exact (reads_number s).imp (fun _ h => .number h) fun _ h => .other h

theorem reads_members (fuel : Nat)
    (hv : ∀ s, Reads (Derives .value) Value.TextKeyed s (value fuel s))
    (hm : ∀ s, Reads (Derives .members) AreNamed s (members fuel s)) (s : List Char) :
    Reads (Derives .members) AreNamed s (members (fuel + 1) s) := by
  rw [members.eq_def]
  dsimp only
  split
  · rename_i r
    refine (reads_stringBody _ r).bind (List.suffix_cons _ _) fun name s₁ hname _ => ?_
    have hcolon := spaces_skipSpace s₁
    dsimp only
    split
    · rename_i s₂ heq
      rw [heq] at hcolon
      have hspace := spaces_skipSpace s₂
      have hs₃ : skipSpace s₂ <:+ '"' :: r := (hspace.suffix.trans ((List.suffix_cons _ _).trans
        (hcolon.suffix.trans hname.suffix))).trans (List.suffix_cons _ _)
      refine (hv _).bind hs₃ fun v s₄ hvalue hkeyed => ?_
      have hnext := spaces_skipSpace s₄
      dsimp only
      split
      · rename_i rest heq'
        rw [heq'] at hnext
        exact reads_pure (.lastMember hname hcolon hspace hvalue hnext)
          (areNamed_nil.cons _ hkeyed)
      · rename_i s₅ heq'
        rw [heq'] at hnext
        have hspace' := spaces_skipSpace s₅
        refine (hm _).bind ?_ fun entries rest hmore hnamed =>
          reads_pure (.member hname hcolon hspace hvalue hnext hspace' hmore)
            (hnamed.cons _ hkeyed)
        exact (hspace'.suffix.trans ((List.suffix_cons _ _).trans
          (hnext.suffix.trans hvalue.suffix))).trans hs₃
      · exact reads_fault _ _
    · exact reads_fault _ _
  · exact reads_fault _ _

theorem reads_elements (fuel : Nat)
    (hv : ∀ s, Reads (Derives .value) Value.TextKeyed s (value fuel s))
    (he : ∀ s, Reads (Derives .elements) (fun _ => True) s (elements fuel s)) (s : List Char) :
    Reads (Derives .elements) (fun _ => True) s (elements (fuel + 1) s) := by
  rw [elements]
  refine (hv s).bind (List.suffix_refl s) fun v s₁ hvalue _ => ?_
  have hnext := spaces_skipSpace s₁
  dsimp only
  split
  · rename_i rest heq
    rw [heq] at hnext
    exact reads_pure (.lastElement hvalue hnext) trivial
  · rename_i s₂ heq
    rw [heq] at hnext
    have hspace := spaces_skipSpace s₂
    refine (he _).bind ?_ fun items rest hmore _ =>
      reads_pure (.element hvalue hnext hspace hmore) trivial
    exact hspace.suffix.trans ((List.suffix_cons _ _).trans (hnext.suffix.trans hvalue.suffix))
  · exact reads_fault _ _

/-- What the readers take is derived, however many steps they may take. -/
theorem reads_all (fuel : Nat) :
    (∀ s, Reads (Derives .value) Value.TextKeyed s (value fuel s)) ∧
      (∀ s, Reads (Derives .members) AreNamed s (members fuel s)) ∧
      ∀ s, Reads (Derives .elements) (fun _ => True) s (elements fuel s) := by
  induction fuel with
  | zero =>
    refine ⟨fun s => ?_, fun s => ?_, fun s => ?_⟩
    · rw [value]
      exact reads_fault _ _
    · rw [members]
      exact reads_fault _ _
    · rw [elements]
      exact reads_fault _ _
  | succ fuel ih =>
    obtain ⟨hv, hm, he⟩ := ih
    exact ⟨reads_value fuel hm he, reads_members fuel hv hm, reads_elements fuel hv he⟩

/-- A text that is read is a document, and a limit is found at a number that is too long. -/
theorem document_spec (s : List Char) :
    match document s with
    | .ok v => IsDocument s ∧ v.TextKeyed
    | .error (.limit _) => HasLongNumber s
    | .error (.before _ _) => True := by
  have hspace := spaces_skipSpace s
  have hreads := (reads_all (2 * s.length + 1)).1 (skipSpace s)
  rw [document]
  split_ifs
  · trivial
  · cases hvalue : value (2 * s.length + 1) (skipSpace s) with
    | ok x =>
      obtain ⟨v, rest⟩ := x
      rw [hvalue] at hreads
      have hend := spaces_skipSpace rest
      simp only [bind, Except.bind, pure, Except.pure]
      cases hrest : skipSpace rest with
      | nil => exact ⟨⟨_, _, hspace, hreads.1, hrest ▸ hend⟩, hreads.2⟩
      | cons c t => trivial
    | error e =>
      rw [hvalue] at hreads
      cases e with
      | limit e => exact HasLongNumber.of_suffix hreads hspace.suffix
      | before _ _ => trivial

end Flowchart.Json
