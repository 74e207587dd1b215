import Flowchart.Diagram.Canvas

/-!
# The characters of labels and ids

The name of an action may be any text, and so may a title or the text on an arrow. On their way into
a line they lose the characters that a line is made of.

* `Clean` texts avoid given characters, and have no blanks but spaces;
* `isWord_nodeId` and `clean_labelText`: the id of a node is a word, and a label has none of the
  five characters with a code of their own. References in the text are decoded before, so they
  cannot bring such a character back.
-/

namespace Flowchart

namespace Text

theorem mem_of_mem_trimEnd {c : Char} {s : List Char} (h : c ∈ trimEnd s) : c ∈ s := by
  rw [trimEnd, List.mem_reverse] at h
  exact List.mem_reverse.mp ((List.dropWhile_sublist _).subset h)

theorem mem_of_mem_trim {c : Char} {s : List Char} (h : c ∈ trim s) : c ∈ s :=
  (List.dropWhile_sublist _).subset (mem_of_mem_trimEnd h)

/-- A run of blanks becomes a space, whatever blanks it is made of. -/
theorem eq_space_of_mem_squeeze {c : Char} {s : List Char} (h : c ∈ squeeze s)
    (hc : isBlank c) : c = ' ' := by
  induction s with
  | nil => exact absurd h List.not_mem_nil
  | cons d rest ih =>
    rw [squeeze] at h
    split at h
    · split at h
      · exact ih h
      · exact (List.mem_cons.mp h).elim id ih
    · rename_i hd
      rcases List.mem_cons.mp h with rfl | h
      · exact absurd hc hd
      · exact ih h

/-- The characters at which a text may be broken into lines. -/
def isLineBreak (c : Char) : Bool :=
  let n := c.toNat
  (0x0A ≤ n && n ≤ 0x0D) || (0x1C ≤ n && n ≤ 0x1E) || n == 0x85 || n == 0x2028 || n == 0x2029

/-- A line break is a blank, and no space. -/
theorem isBlank_of_isLineBreak {c : Char} (h : isLineBreak c) : isBlank c ∧ c ≠ ' ' := by
  constructor
  · simp only [isLineBreak, isBlank, Bool.or_eq_true, Bool.and_eq_true, decide_eq_true_eq,
      beq_iff_eq] at h ⊢
    omega
  · rintro rfl
    exact absurd h (by decide)

end Text

namespace Diagram

/-! ## Clean texts -/

/-- A text without certain characters, in which every blank is a space. -/
def Clean (without : List Char) (s : String) : Prop :=
  ∀ c ∈ s.toList, c ∉ without ∧ (Text.isBlank c → c = ' ')

instance (without : List Char) (s : String) : Decidable (Clean without s) :=
  decidable_of_iff (s.toList.all fun c => !without.contains c && (!Text.isBlank c || c == ' '))
    (by simp [Clean, Decidable.imp_iff_not_or])

namespace Clean

variable {without fewer : List Char} {s s' : String}

theorem mono (h : Clean without s) (hsub : fewer ⊆ without) : Clean fewer s :=
  fun c hc => ⟨fun hmem => (h c hc).1 (hsub hmem), (h c hc).2⟩

theorem append (h : Clean without s) (h' : Clean without s') : Clean without (s ++ s') := by
  intro c hc
  rw [String.toList_append, List.mem_append] at hc
  exact hc.elim (h c) (h' c)

theorem not_mem (h : Clean without s) {c : Char} (hc : c ∈ without) : c ∉ s.toList :=
  fun hmem => (h c hmem).1 hc

end Clean

/-! ## Ids -/

/-- A text of letters, digits and underscores. -/
def IsWord (s : String) : Prop := ∀ c ∈ s.toList, isWordChar c

instance : DecidablePred IsWord := fun s =>
  decidable_of_iff (s.toList.all isWordChar) List.all_eq_true

/-- No blank stands in a word. -/
theorem isBlank_of_isWordChar {c : Char} (h : isWordChar c) : Text.isBlank c = false := by
  rw [← Bool.not_eq_true]
  intro hblank
  rw [isWordChar, Bool.or_eq_true, beq_iff_eq] at h
  rcases h with h | rfl
  · delta Char.isAlphanum Char.isAlpha Char.isUpper Char.isLower Char.isDigit at h
    simp only [Bool.or_eq_true, Bool.and_eq_true, decide_eq_true_eq, ge_iff_le,
      UInt32.le_iff_toNat_le] at h
    simp only [Text.isBlank, Bool.or_eq_true, Bool.and_eq_true, decide_eq_true_eq,
      beq_iff_eq] at hblank
    simp only [Char.toNat_val, Char.reduceToNat] at h
    omega
  · exact absurd hblank (by decide)

theorem IsWord.clean {s : String} (h : IsWord s) {without : List Char}
    (hwithout : without.all fun c => !isWordChar c) : Clean without s := by
  intro c hc
  have hword := h c hc
  refine ⟨fun hmem => ?_, fun hblank => absurd hblank (by simp [isBlank_of_isWordChar hword])⟩
  have hnot := List.all_eq_true.mp hwithout c hmem
  rw [hword] at hnot
  cases hnot

/-- The id of a node is a word. -/
theorem isWord_nodeId (name : String) : IsWord (nodeId name) := by
  have himage : ∀ c ∈ wordImage name.toList, isWordChar c := by
    intro c hc
    obtain ⟨d, -, rfl⟩ := List.mem_map.mp hc
    split
    · assumption
    · decide
  intro c hc
  rw [nodeId, String.toList_ofList, startWithLetter] at hc
  split at hc
  · exact himage c hc
  · rcases List.mem_cons.mp hc with rfl | hc
    · decide
    · rcases List.mem_cons.mp hc with rfl | hc
      · decide
      · exact himage c hc

/-! ## Labels -/

/-- The characters that have a code in labels. -/
def labelMarks : List Char := ['&', '<', '>', '"', '|']

/-- The code of a character has none of them. -/
theorem mem_labelChar {c d : Char} (h : d ∈ labelChar c) :
    d ∉ labelMarks ∧ (Text.isBlank d → d = c) := by
  have hcode : ∀ code : List Char,
      (code.all fun d => !labelMarks.contains d && !Text.isBlank d) → d ∈ code →
      d ∉ labelMarks ∧ (Text.isBlank d → d = c) := by
    intro code hcode hd
    obtain ⟨hmarks, hblank⟩ : d ∉ labelMarks ∧ Text.isBlank d = false := by
      simpa using List.all_eq_true.mp hcode d hd
    exact ⟨hmarks, fun h => absurd h (by simp [hblank])⟩
  unfold labelChar at h
  split at h
  · exact hcode _ (by decide) h
  · exact hcode _ (by decide) h
  · exact hcode _ (by decide) h
  · exact hcode _ (by decide) h
  · exact hcode _ (by decide) h
  · obtain rfl := List.mem_singleton.mp h
    refine ⟨?_, fun _ => rfl⟩
    simp only [labelMarks, List.mem_cons, List.not_mem_nil, or_false, not_or]
    exact ⟨‹_›, ‹_›, ‹_›, ‹_›, ‹_›⟩

/-- A label has none of the characters that could end it, and no blanks but spaces. -/
theorem clean_labelText (text : String) : Clean labelMarks (labelText text) := by
  intro d hd
  rw [labelText, String.toList_ofList, List.mem_flatMap] at hd
  obtain ⟨c, hc, hd⟩ := hd
  obtain ⟨hmarks, hblank⟩ := mem_labelChar hd
  refine ⟨hmarks, fun h => ?_⟩
  obtain rfl := hblank h
  exact Text.eq_space_of_mem_squeeze (Text.mem_of_mem_trim hc) h

end Diagram

end Flowchart
