import Flowchart.Proofs.Derivation

/-!
# Documents are read

The readers take everything that the grammar derives.

* `Takes` says so of one result: the reader goes on with the right text, or it fails for a limit;
* `Chars.stringBody_eq_ok` and `Number.takes` are for strings and numbers. The grammar lets a number
  end anywhere and the reader looks for the longest one, so what follows matters: `Follows`;
* `Derives.accepts`, by induction on the derivation, needs steps for the length of the text only;
* `read_spec` puts the two directions together;
* `read_of_long_digits`: an integer alone is a document too, and may have too many digits.
-/

namespace Flowchart.Json

/-! ## What is derived is taken -/

/-- A reader goes on with `rest`, or it fails for a limit. -/
def Takes {α : Type} (r : Except Fault (α × List Char)) (rest : List Char) : Prop :=
  (∃ a, r = .ok (a, rest)) ∨ ∃ e, r = .error (.limit e)

section Takes

variable {α β : Type} {s rest t : List Char}

theorem takes_pure (a : α) : Takes (pure (a, rest)) rest := Or.inl ⟨a, rfl⟩

theorem Takes.bind {r : Except Fault (α × List Char)}
    {f : α × List Char → Except Fault (β × List Char)} (h : Takes r t)
    (hf : ∀ a, Takes (f (a, t)) rest) : Takes (r >>= f) rest := by
  rcases h with ⟨a, rfl⟩ | ⟨e, rfl⟩
  · exact hf a
  · exact Or.inr ⟨e, rfl⟩

theorem Spaces.skip (h : Spaces s rest) (hrest : ∀ c, rest.head? = some c → ¬isSpace c) :
    skipSpace s = rest := by
  induction h with
  | nil s =>
    cases s with
    | nil => rfl
    | cons c s => exact List.dropWhile_cons_of_neg (hrest c rfl)
  | cons space _ ih =>
    rw [skipSpace, List.dropWhile_cons_of_pos space]
    exact ih hrest

theorem Spaces.skip_cons {c : Char} (h : Spaces s (c :: rest)) (hc : ¬isSpace c) :
    skipSpace s = c :: rest :=
  h.skip fun _ hd => Option.some.inj hd ▸ hc

end Takes

/-! ### Strings -/

theorem codeUnit_of_digits {digits s : List Char} (hlength : digits.length = 4)
    (hhex : ∀ c ∈ digits, Text.CharRef.isHexDigit c) (hs : s ≠ []) :
    ∃ n, codeUnit ('u' :: (digits ++ s)) = .ok n := by
  have htake : (digits ++ s).take 4 = digits := List.take_left' hlength
  have hdrop : (digits ++ s).drop 4 = s := List.drop_left' hlength
  refine ⟨Text.CharRef.ofDigits 16 digits, ?_⟩
  rw [codeUnit]
  simp only [List.drop_succ_cons, List.drop_zero, htake, hdrop]
  rw [if_neg]
  · rfl
  · simpa [hs] using hhex

theorem Chars.ne_nil {s rest : List Char} (h : Chars s rest) : s ≠ [] := by
  cases h <;> exact List.cons_ne_nil _ _

/-- An escape is taken alone or with the one after it, so what is left is no longer than `s`. -/
theorem unicodeEscape_of_digits {digits s rest : List Char} (hlength : digits.length = 4)
    (hhex : ∀ c ∈ digits, Text.CharRef.isHexDigit c) (h : Chars s rest) :
    ∃ c n, unicodeEscape ('u' :: (digits ++ s)) = .ok (c, n) ∧
      Chars (('u' :: (digits ++ s)).drop n) rest ∧
      (('u' :: (digits ++ s)).drop n).length ≤ s.length := by
  obtain ⟨high, hhigh⟩ := codeUnit_of_digits hlength hhex h.ne_nil
  have hdrop : ('u' :: (digits ++ s)).drop 5 = s := List.drop_left' hlength
  have hone : Chars (('u' :: (digits ++ s)).drop 5) rest ∧
      (('u' :: (digits ++ s)).drop 5).length ≤ s.length := by
    rw [hdrop]
    exact ⟨h, le_refl _⟩
  rw [unicodeEscape]
  simp only [hhigh, bind, Except.bind, pure, Except.pure, hdrop]
  split
  · rename_i hpair
    simp only [Bool.and_eq_true, beq_iff_eq] at hpair
    obtain ⟨⟨-, hnext⟩, -⟩ := hpair
    cases h with
    | close | plain => simp_all
    | escape letter h => simp_all
    | @unicode digits' s' _ hlength' hhex' h' =>
      obtain ⟨low, hlow⟩ := codeUnit_of_digits hlength' hhex' h'.ne_nil
      simp only [List.drop_succ_cons, List.drop_zero, hlow]
      split
      · have hpair : ('u' :: (digits ++ '\\' :: 'u' :: (digits' ++ s'))).drop 11 = s' := by
          rw [← List.drop_drop (i := 6) (j := 5), hdrop]
          exact List.drop_left' hlength'
        refine ⟨_, 11, rfl, ?_⟩
        rw [hpair]
        refine ⟨h', ?_⟩
        simp only [List.length_cons, List.length_append]
        omega
      · exact ⟨_, 5, rfl, hone⟩
  · exact ⟨_, 5, rfl, hone⟩

theorem escapedChar?_of_mem {c : Char} (h : c ∈ ['"', '\\', '/', 'b', 'f', 'n', 'r', 't']) :
    ∃ e, escapedChar? c = some e := by
  simp only [List.mem_cons, List.not_mem_nil, or_false] at h
  rcases h with rfl | rfl | rfl | rfl | rfl | rfl | rfl | rfl
  all_goals exact ⟨_, rfl⟩

/-- The characters of a string are taken up to the closing quote. -/
theorem Chars.stringBody_eq_ok {s rest : List Char} (h : Chars s rest) (opening : List Char) :
    ∃ text, stringBody opening s = .ok (text, rest) := by
  induction hn : s.length using Nat.strong_induction_on generalizing s with
  | h n ih =>
    have hshorter : ∀ {t : List Char}, Chars t rest → t.length < s.length →
        ∃ text, stringBody opening t = .ok (text, rest) := fun ht hlt => ih _ (hn ▸ hlt) ht rfl
    cases h with
    | close => exact ⟨[], by rw [stringBody]; rfl⟩
    | @plain c s _ printed quote backslash h =>
      obtain ⟨text, htext⟩ := hshorter h (Nat.lt_succ_self _)
      refine ⟨c :: text, ?_⟩
      rw [stringBody.eq_def]
      split
      · rename_i heq
        cases heq
      · rename_i heq
        cases heq
        exact absurd rfl quote
      · rename_i heq
        cases heq
        exact absurd rfl backslash
      · rename_i heq
        cases heq
        simp only [if_neg (Nat.not_lt.mpr printed), htext, bind, Except.bind]
        rfl
    | @escape c s _ letter h =>
      obtain ⟨e, he⟩ := escapedChar?_of_mem letter
      have hescape : Json.escape opening (c :: s) = .ok (e, 1) := by
        have hu : c ≠ 'u' := by
          rintro rfl
          simp at letter
        rw [Json.escape.eq_def]
        split
        · rename_i heq
          cases heq
        · rename_i heq
          cases heq
          exact absurd rfl hu
        · rename_i heq
          cases heq
          rw [he]
          rfl
      obtain ⟨text, htext⟩ := hshorter h (by simp only [List.length_cons]; omega)
      refine ⟨e :: text, ?_⟩
      rw [stringBody, hescape]
      simp only [bind, Except.bind, List.drop_succ_cons, List.drop_zero, htext]
      rfl
    | @unicode digits s _ length hex h =>
      obtain ⟨c, n, hescape, hchars, hle⟩ := unicodeEscape_of_digits length hex h
      obtain ⟨text, htext⟩ := hshorter hchars (by
        simp only [List.length_cons, List.length_append]
        omega)
      have hread : Json.escape opening ('u' :: (digits ++ s)) = .ok (c, n) := hescape
      refine ⟨c :: text, ?_⟩
      rw [stringBody, hread]
      simp only [bind, Except.bind, htext]
      rfl

/-! ### Numbers -/

/-- What may follow a value: nothing, white space, or the end or the separator of what the value is
in. -/
def Follows (rest : List Char) : Prop :=
  ∀ c, rest.head? = some c → isSpace c ∨ c ∈ [',', ']', '}']

/-- No digit and no point starts the text. -/
def Stops (rest : List Char) : Prop :=
  ∀ c, rest.head? = some c → ¬c.isDigit ∧ c ≠ '.'

section Follows

variable {s rest : List Char}

theorem isSpace_iff {c : Char} : isSpace c ↔ c ∈ [' ', '\t', '\n', '\r'] := by
  simp [isSpace, or_assoc]

theorem follows_nil : Follows [] := fun _ h => by cases h

theorem follows_cons {c : Char} (hc : c ∈ [',', ']', '}']) : Follows (c :: rest) :=
  fun _ h => Or.inr (Option.some.inj h ▸ hc)

theorem Spaces.follows (h : Spaces s rest) (hf : Follows rest) : Follows s := by
  cases h with
  | nil => exact hf
  | cons space _ => exact fun _ hc => Or.inl (Option.some.inj hc ▸ space)

theorem Follows.mem (h : Follows rest) {c : Char} (hc : rest.head? = some c) :
    c ∈ [' ', '\t', '\n', '\r', ',', ']', '}'] := by
  rcases h c hc with hspace | hmem
  · exact List.mem_append_left [',', ']', '}'] (isSpace_iff.mp hspace)
  · exact List.mem_append_right [' ', '\t', '\n', '\r'] hmem

theorem Follows.stops (h : Follows rest) : Stops rest := by
  intro c hc
  have hmem := h.mem hc
  simp only [List.mem_cons, List.not_mem_nil, or_false] at hmem
  rcases hmem with rfl | rfl | rfl | rfl | rfl | rfl | rfl
  all_goals decide

theorem Follows.not_letter (h : Follows rest) {c : Char} (hc : rest.head? = some c) :
    ¬(c = 'e' ∨ c = 'E') := by
  have hmem := h.mem hc
  simp only [List.mem_cons, List.not_mem_nil, or_false] at hmem
  rcases hmem with rfl | rfl | rfl | rfl | rfl | rfl | rfl
  all_goals decide

theorem Exponent.stops (h : Exponent s rest) (hrest : Stops rest) : Stops s := by
  cases h with
  | none => exact hrest
  | some letter _ _ =>
    intro c hc
    cases hc
    rcases letter with rfl | rfl
    all_goals decide

theorem Digits.head (h : Digits s rest) : ∃ c t, s = c :: t ∧ c.isDigit := by
  obtain ⟨digits, hne, hdigits, rfl⟩ := h
  obtain ⟨c, t, rfl⟩ := List.exists_cons_of_ne_nil hne
  exact ⟨c, t ++ rest, rfl, hdigits c List.mem_cons_self⟩

/-- The digits are taken as far as they go. -/
theorem Digits.takeWhile (h : Digits s rest)
    (hrest : ∀ c, rest.head? = some c → ¬c.isDigit) :
    s.takeWhile Char.isDigit ≠ [] ∧ s.drop (s.takeWhile Char.isDigit).length = rest := by
  obtain ⟨digits, hne, hdigits, rfl⟩ := h
  have hstop : rest.takeWhile Char.isDigit = [] := by
    cases rest with
    | nil => rfl
    | cons c t => exact List.takeWhile_cons_of_neg (hrest c rfl)
  have htake : (digits ++ rest).takeWhile Char.isDigit = digits := by
    rw [List.takeWhile_append_of_pos hdigits, hstop, List.append_nil]
  rw [htake]
  exact ⟨hne, List.drop_left⟩

theorem Whole.afterWhole_eq (h : Whole s rest) (hrest : ∀ c, rest.head? = some c → ¬c.isDigit) :
    wholeDigits s ≠ [] ∧ afterWhole s = rest := by
  cases h with
  | zero => exact ⟨List.cons_ne_nil _ _, rfl⟩
  | digits nonzero h =>
    have hwhole : wholeDigits s = s.takeWhile Char.isDigit := by
      rw [wholeDigits.eq_def]
      split
      · exact absurd rfl nonzero
      · rfl
    rw [afterWhole, hwhole]
    exact h.takeWhile hrest

theorem Fraction.afterFraction_eq (h : Fraction s rest) (hrest : Stops rest) :
    afterFraction s = rest := by
  cases h with
  | none =>
    have hnone : fractionDigits s = [] := by
      rw [fractionDigits.eq_def]
      split
      · exact absurd rfl (hrest '.' rfl).2
      · rfl
    rw [afterFraction, hnone]
    rfl
  | some h =>
    obtain ⟨hne, hdrop⟩ := h.takeWhile fun c hc => (hrest c hc).1
    rw [afterFraction, fractionDigits, if_neg (by simpa using hne), Nat.add_comm,
      List.drop_succ_cons, hdrop]

/-- The sign before digits is split off. -/
theorem splitSign_append {sign : List Char} (hsign : sign ∈ [[], ['+'], ['-']])
    (h : Digits s rest) : (Decimal.splitSign (sign ++ s)).2 = s := by
  simp only [List.mem_cons, List.not_mem_nil, or_false] at hsign
  rcases hsign with rfl | rfl | rfl
  · obtain ⟨c, t, rfl, hc⟩ := h.head
    rw [Decimal.splitSign.eq_def]
    split
    all_goals first
      | rfl
      | rename_i heq
        cases heq
        exact absurd hc (by decide)
  · rfl
  · rfl

theorem Exponent.afterExponent_eq (h : Exponent s rest) (hf : Follows rest) :
    afterExponent s = rest := by
  rw [afterExponent, exponentPart.eq_def]
  cases h with
  | none =>
    split
    · rfl
    · rename_i e t
      have hletter : (e == 'e' || e == 'E') = false := by simpa using hf.not_letter (c := e) rfl
      simp [hletter]
  | @some e sign s _ letter plusMinus h =>
    obtain ⟨hne, hdrop⟩ := h.takeWhile fun c hc => (hf.stops c hc).1
    have hletter : (e == 'e' || e == 'E') = true := by simpa using letter
    have hdigits : (!(s.takeWhile Char.isDigit).isEmpty) = true := by simpa using hne
    simp only [splitSign_append plusMinus h, hletter, hdigits, Bool.and_self, if_true,
      Option.getD_some]
    rw [List.length_append, Nat.add_sub_cancel, Nat.add_assoc, Nat.add_comm 1,
      List.drop_succ_cons, List.drop_length_add_append, hdrop]

theorem Fraction.stops (h : Fraction s rest) (hrest : Stops rest) :
    ∀ c : Char, s.head? = Option.some c → ¬c.isDigit := by
  cases h with
  | none => exact fun c hc => (hrest c hc).1
  | some _ =>
    intro c hc
    cases hc
    decide

theorem Unsigned.head (h : Unsigned s rest) : ∃ c t, s = c :: t ∧ c.isDigit := by
  obtain ⟨whole, -, -⟩ := h
  cases whole with
  | zero => exact ⟨'0', _, rfl, rfl⟩
  | digits _ h => exact h.head

theorem Number.takes (h : Number s rest) (hf : Follows rest) : Takes (number s) rest := by
  have hunsigned : ∀ {u : List Char}, IsUnsigned s u → Unsigned u rest → Takes (number s) rest := by
    rintro u hu ⟨whole, fraction, exponent⟩
    have hstops := exponent.stops hf.stops
    obtain ⟨hdigits, hwhole⟩ := whole.afterWhole_eq (fraction.stops hstops)
    obtain ⟨negative, hnumber⟩ := number_of_digits hu hdigits
    rw [hnumber, hwhole, fraction.afterFraction_eq hstops]
    rcases numberOf_cases negative (wholeDigits u) _ _ with ⟨-, e, he⟩ | ⟨v, -, hv⟩
    · rw [he]
      exact Or.inr ⟨e, rfl⟩
    · rw [hv, exponent.afterExponent_eq hf]
      exact Or.inl ⟨v, rfl⟩
  cases h with
  | plain h =>
    refine hunsigned (Or.inl ⟨?_, rfl⟩) h
    obtain ⟨c, t, rfl, hc⟩ := h.head
    intro hminus
    cases hminus
    revert hc
    decide
  | minus h => exact hunsigned (Or.inr rfl) h

end Follows

/-! ### Values -/

section Derives

variable {s rest : List Char}

theorem Number.head (h : Number s rest) :
    ∃ c t, s = c :: t ∧ (c.isDigit ∨ c = '-' ∧ ∃ d u, t = d :: u ∧ d.isDigit) := by
  cases h with
  | plain h =>
    obtain ⟨c, t, rfl, hc⟩ := h.head
    exact ⟨c, t, rfl, Or.inl hc⟩
  | minus h =>
    obtain ⟨d, u, rfl, hd⟩ := h.head
    exact ⟨'-', _, rfl, Or.inr ⟨rfl, d, u, rfl, hd⟩⟩

theorem isPrefixOf_cons_of_ne {c d : Char} (h : c ≠ d) (s t : List Char) :
    (c :: s).isPrefixOf (d :: t) = false := by
  simp [List.isPrefixOf, h]

/-- No word is a number; `-Infinity` goes on with a letter. -/
theorem Number.word?_eq_none (h : Number s rest) : word? s = none := by
  obtain ⟨c, t, rfl, hc⟩ := h.head
  have hword : ∀ w ∈ keywords, w.toList.isPrefixOf (c :: t) = false := by
    intro w hw
    simp only [keywords, List.mem_cons, List.not_mem_nil, or_false] at hw
    rcases hc with hc | ⟨rfl, d, u, rfl, hd⟩
    · rcases hw with rfl | rfl | rfl | rfl | rfl | rfl
      all_goals
        refine isPrefixOf_cons_of_ne ?_ _ _
        rintro rfl
        revert hc
        decide
    · rcases hw with rfl | rfl | rfl | rfl | rfl | rfl
      iterate 5 exact isPrefixOf_cons_of_ne (by decide) _ _
      refine isPrefixOf_cons_of_ne (c := 'I') ?_ _ u
      rintro rfl
      revert hd
      decide
  rw [word?, List.findSome?_eq_none_iff]
  intro e he
  simp only [words, List.mem_cons, List.not_mem_nil, or_false] at he
  rcases he with rfl | rfl | rfl | rfl | rfl | rfl
  all_goals exact if_neg (by rw [hword _ (by decide)]; exact Bool.false_ne_true)

theorem word?_append {w : String} (h : w ∈ keywords) (rest : List Char) :
    ∃ v, word? (w.toList ++ rest) = some (v, rest) := by
  simp only [keywords, List.mem_cons, List.not_mem_nil, or_false] at h
  rcases h with rfl | rfl | rfl | rfl | rfl | rfl
  all_goals exact ⟨_, rfl⟩

/-- What starts no value: white space, what closes a group, and the byte order mark. -/
def notStarting : List Char := [' ', '\t', '\n', '\r', ']', '}', '\uFEFF']

theorem Derives.head {p : Phrase} (h : Derives p s rest) :
    ∃ c t, s = c :: t ∧ c ∉ notStarting := by
  induction h with
  | string | emptyObject | object | emptyArray | array | lastMember | member =>
    exact ⟨_, _, rfl, by decide⟩
  | number h =>
    obtain ⟨c, t, rfl, hc⟩ := h.head
    refine ⟨c, t, rfl, fun hmem => ?_⟩
    simp only [notStarting, List.mem_cons, List.not_mem_nil, or_false] at hmem
    have hstart := hc.imp_right And.left
    rcases hmem with rfl | rfl | rfl | rfl | rfl | rfl | rfl
    all_goals exact absurd hstart (by decide)
  | word rest h =>
    simp only [keywords, List.mem_cons, List.not_mem_nil, or_false] at h
    rcases h with rfl | rfl | rfl | rfl | rfl | rfl
    all_goals exact ⟨_, _, rfl, by decide⟩
  | lastElement _ _ ih | element _ _ _ _ ih => exact ih

theorem not_isSpace_of_starting {c : Char} (h : c ∉ notStarting) : ¬isSpace c :=
  fun hspace => h (List.mem_append_left [']', '}', '\uFEFF'] (isSpace_iff.mp hspace))

/-- Where a phrase is derived, its reader takes it, in steps for the length of the text. The reader
of elements hands on the text as it is, so it needs a step more. -/
def Phrase.Accepts (s rest : List Char) : Phrase → Prop
  | value => ∀ fuel, 2 * s.length ≤ fuel → Follows rest → Takes (Json.value fuel s) rest
  | members => ∀ fuel, 2 * s.length ≤ fuel → Takes (Json.members fuel s) rest
  | elements => ∀ fuel, 2 * s.length + 1 ≤ fuel → Takes (Json.elements fuel s) rest

/-- What starts a number starts no other value. -/
theorem Number.value_eq (h : Number s rest) (fuel : Nat) : value (fuel + 1) s = number s := by
  have hword := h.word?_eq_none
  obtain ⟨c, t, rfl, hc⟩ := h.head
  have hstart := hc.imp_right And.left
  rw [value.eq_def]
  dsimp only
  split
  iterate 3
    rename_i heq
    cases heq
    exact absurd hstart (by decide)
  rw [hword]

theorem takes_value_word {w : String} (h : w ∈ keywords) (fuel : Nat) (rest : List Char) :
    Takes (value (fuel + 1) (w.toList ++ rest)) rest := by
  obtain ⟨v, hv⟩ := word?_append h rest
  have hvalue : value (fuel + 1) (w.toList ++ rest) = .ok (v, rest) := by
    rw [value.eq_def]
    dsimp only
    simp only [keywords, List.mem_cons, List.not_mem_nil, or_false] at h
    rcases h with rfl | rfl | rfl | rfl | rfl | rfl
    all_goals
      rw [hv]
      rfl
  exact Or.inl ⟨v, hvalue⟩

/-- The text behind white space that the text of a phrase starts with. -/
theorem Derives.skip {p : Phrase} {t : List Char} (h : Derives p t rest) (hs : Spaces s t) :
    skipSpace s = t := by
  obtain ⟨c, u, rfl, hc⟩ := h.head
  exact hs.skip_cons (not_isSpace_of_starting hc)

theorem takes_value_object {t : List Char} (hs : Spaces s t) (h : Derives .members t rest)
    {fuel : Nat} (hm : Takes (members fuel t) rest) : Takes (value (fuel + 1) ('{' :: s)) rest := by
  have hskip := h.skip hs
  obtain ⟨c, u, rfl, hc⟩ := h.head
  rw [value, hskip]
  split
  · rename_i heq
    cases heq
    exact absurd (by decide) hc
  · exact hm.bind fun _ => takes_pure _

theorem takes_value_array {t : List Char} (hs : Spaces s t) (h : Derives .elements t rest)
    {fuel : Nat} (he : Takes (elements fuel t) rest) :
    Takes (value (fuel + 1) ('[' :: s)) rest := by
  have hskip := h.skip hs
  obtain ⟨c, u, rfl, hc⟩ := h.head
  rw [value, hskip]
  split
  · rename_i heq
    cases heq
    exact absurd (by decide) hc
  · exact he.bind fun _ => takes_pure _

theorem Derives.accepts {p : Phrase} (h : Derives p s rest) : p.Accepts s rest := by
  have hcomma : ¬isSpace ',' := by decide
  have hcolon : ¬isSpace ':' := by decide
  have hbrace : ¬isSpace '}' := by decide
  have hbracket : ¬isSpace ']' := by decide
  induction h with
  | string h =>
    rintro (_ | fuel) hfuel -
    · cases hfuel
    · obtain ⟨text, htext⟩ := h.stringBody_eq_ok _
      rw [value, htext]
      exact takes_pure _
  | @number s rest h =>
    rintro (_ | fuel) hfuel hf
    · obtain ⟨c, t, rfl, -⟩ := h.head
      cases hfuel
    · rw [h.value_eq]
      exact h.takes hf
  | @word w rest h =>
    rintro (_ | fuel) hfuel -
    · obtain ⟨c, t, hs, -⟩ := (Derives.word rest h).head
      rw [hs] at hfuel
      cases hfuel
    · exact takes_value_word h fuel rest
  | emptyObject h =>
    rintro (_ | fuel) hfuel -
    · cases hfuel
    · rw [value, h.skip_cons hbrace]
      exact takes_pure _
  | object space h ih =>
    rintro (_ | fuel) hfuel -
    · cases hfuel
    · have hle := space.suffix.length_le
      rw [List.length_cons] at hfuel
      exact takes_value_object space h (ih fuel (by omega))
  | emptyArray h =>
    rintro (_ | fuel) hfuel -
    · cases hfuel
    · rw [value, h.skip_cons hbracket]
      exact takes_pure _
  | array space h ih =>
    rintro (_ | fuel) hfuel -
    · cases hfuel
    · have hle := space.suffix.length_le
      rw [List.length_cons] at hfuel
      exact takes_value_array space h (ih fuel (by omega))
  | lastMember name colon space h close ih =>
    rintro (_ | fuel) hfuel
    · cases hfuel
    · have hs₁ := name.suffix.length_le
      have hs₂ := colon.suffix.length_le
      have hs₃ := space.suffix.length_le
      rw [List.length_cons] at hfuel hs₂
      rw [members]
      refine Takes.bind (Or.inl (name.stringBody_eq_ok _)) fun text => ?_
      dsimp only
      rw [colon.skip_cons hcolon]
      have hv := ih fuel (by omega) (close.follows (follows_cons (by decide)))
      rw [← h.skip space] at hv
      refine hv.bind fun v => ?_
      dsimp only
      rw [close.skip_cons hbrace]
      exact takes_pure _
  | member name colon space h comma space' h' ih₁ ih₂ =>
    rintro (_ | fuel) hfuel
    · cases hfuel
    · have hs₁ := name.suffix.length_le
      have hs₂ := colon.suffix.length_le
      have hs₃ := space.suffix.length_le
      have hs₄ := h.suffix.length_le
      have hs₅ := comma.suffix.length_le
      have hs₆ := space'.suffix.length_le
      rw [List.length_cons] at hfuel hs₂ hs₅
      rw [members]
      refine Takes.bind (Or.inl (name.stringBody_eq_ok _)) fun text => ?_
      dsimp only
      rw [colon.skip_cons hcolon]
      have hv := ih₁ fuel (by omega) (comma.follows (follows_cons (by decide)))
      have hm := ih₂ fuel (by omega)
      rw [← h.skip space] at hv
      rw [← h'.skip space'] at hm
      refine hv.bind fun v => ?_
      dsimp only
      rw [comma.skip_cons hcomma]
      exact hm.bind fun _ => takes_pure _
  | lastElement h close ih =>
    rintro (_ | fuel) hfuel
    · cases hfuel
    · rw [elements]
      refine (ih fuel (by omega) (close.follows (follows_cons (by decide)))).bind fun v => ?_
      dsimp only
      rw [close.skip_cons hbracket]
      exact takes_pure _
  | element h comma space h' ih₁ ih₂ =>
    rintro (_ | fuel) hfuel
    · cases hfuel
    · have hle := space.suffix.length_le
      have hle' := comma.suffix.length_le
      have hle'' := h.suffix.length_le
      rw [List.length_cons] at hle'
      rw [elements]
      have he := ih₂ fuel (by omega)
      rw [← h'.skip space] at he
      refine (ih₁ fuel (by omega) (comma.follows (follows_cons (by decide)))).bind fun v => ?_
      dsimp only
      rw [comma.skip_cons hcomma]
      exact he.bind fun _ => takes_pure _

/-- What starts a value is not the byte order mark. -/
theorem document_eq (before : Spaces s rest) {t : List Char} (h : Derives .value rest t) :
    document s = (value (2 * s.length + 1) rest).bind fun x =>
      match skipSpace x.2 with
      | [] => pure x.1
      | rest => fault .extra rest := by
  have hmark : s.head? ≠ some '\uFEFF' := by
    intro hmark
    cases before with
    | nil =>
      obtain ⟨c, t, rfl, hc⟩ := h.head
      cases hmark
      exact absurd (by decide) hc
    | cons space _ =>
      cases hmark
      exact absurd space (by decide)
  rw [document, if_neg hmark, h.skip before]
  rfl

/-- A document is read, unless a limit stops the reading. -/
theorem document_of_isDocument (h : IsDocument s) :
    (∃ v, document s = .ok v) ∨ ∃ e, document s = .error (.limit e) := by
  obtain ⟨s₁, s₂, before, hvalue, after⟩ := h
  have hlength := before.suffix.length_le
  have hend : skipSpace s₂ = [] := after.skip fun _ hc => by cases hc
  rw [document_eq before hvalue]
  rcases hvalue.accepts (2 * s.length + 1) (by omega) (after.follows follows_nil)
    with ⟨v, hv⟩ | ⟨e, he⟩
  · refine Or.inl ⟨v, ?_⟩
    rw [hv, Except.bind, hend]
    rfl
  · refine Or.inr ⟨e, ?_⟩
    rw [he, Except.bind]

end Derives

/-- A text is read just if it is a document, except that a limit may stop the reading. -/
theorem read_spec (text : String) :
    match read text with
    | .ok v => IsDocument text.toList ∧ v.TextKeyed
    | .error (.malformed _ _ _ _) => ¬IsDocument text.toList
    | .error (.limit _) => HasLongNumber text.toList := by
  have hspec := document_spec text.toList
  rw [read]
  cases hread : document text.toList with
  | ok v =>
    rw [hread] at hspec
    exact hspec
  | error e =>
    rw [hread] at hspec
    cases e with
    | limit e => exact hspec
    | before problem rest =>
      intro hdocument
      rcases document_of_isDocument hdocument with ⟨v, hv⟩ | ⟨e, he⟩
      · rw [hread] at hv
        cases hv
      · rw [hread] at he
        cases he

/-! ## Long integers -/

section Integer

variable {digits : List Char}

theorem unsigned_of_digits (hdigits : ∀ c ∈ digits, c.isDigit) (hzero : digits.head? ≠ some '0')
    (hne : digits ≠ []) : Unsigned digits [] :=
  ⟨.digits hzero ⟨digits, hne, hdigits, (List.append_nil digits).symm⟩, .none [], .none []⟩

/-- An integer alone is a document. -/
theorem isDocument_of_digits (hdigits : ∀ c ∈ digits, c.isDigit)
    (hzero : digits.head? ≠ some '0') (hne : digits ≠ []) : IsDocument digits :=
  ⟨digits, [], .nil digits, .number (.plain (unsigned_of_digits hdigits hzero hne)), .nil []⟩

/-- If it has too many digits, it is not read. -/
theorem read_of_long_digits (hdigits : ∀ c ∈ digits, c.isDigit) (hzero : digits.head? ≠ some '0')
    (hlong : Decimal.maxDigits < digits.length) :
    read (String.ofList digits) = .error (.limit (.reading digits.length)) := by
  have hne : digits ≠ [] := List.ne_nil_of_length_pos (Nat.zero_lt_of_lt hlong)
  have hnumber : Number digits [] := .plain (unsigned_of_digits hdigits hzero hne)
  have hwhole : Whole digits [] :=
    .digits hzero ⟨digits, hne, hdigits, (List.append_nil digits).symm⟩
  obtain ⟨hfound, hafter⟩ := hwhole.afterWhole_eq fun _ hc => by cases hc
  have hall : wholeDigits digits = digits := by
    have happend := wholeDigits_append_afterWhole digits
    rwa [hafter, List.append_nil] at happend
  have hminus : digits.head? ≠ some '-' := by
    intro hhead
    obtain ⟨t, rfl⟩ := List.head?_eq_some_iff.mp hhead
    exact absurd (hdigits '-' List.mem_cons_self) (by decide)
  obtain ⟨negative, hread⟩ := number_of_digits (Or.inl ⟨hminus, rfl⟩) hfound
  have hlimit : number digits = .error (.limit (.reading digits.length)) := by
    rw [hread, hafter, hall]
    exact if_pos hlong
  rw [read, String.toList_ofList, document_eq (.nil digits) (.number hnumber), hnumber.value_eq,
    hlimit]
  rfl

end Integer

end Flowchart.Json
