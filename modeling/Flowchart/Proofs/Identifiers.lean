import Flowchart.Proofs.Labels

/-!
# Which names share an identifier

`nodeId` makes identifiers, and many names become the same one. This file says which.

* `IsIdentifier` texts are a letter with letters, digits and underscores after it. They are what
  `nodeId` gives, and what it leaves as it is;
* `startWithLetter_eq_iff`: putting `N_` before words makes two of them equal only if one has the
  prefix already, and is otherwise the other one;
* `nodeId_identifies` puts this together with the characters that are replaced.
-/

namespace Flowchart.Diagram

/-! ## Identifiers -/

/-- A letter of the alphabet, of either case. -/
def IsLetter (c : Char) : Prop := ('A' ≤ c ∧ c ≤ 'Z') ∨ ('a' ≤ c ∧ c ≤ 'z')

/-- A letter, a digit or an underscore. -/
def IsIdChar (c : Char) : Prop := IsLetter c ∨ ('0' ≤ c ∧ c ≤ '9') ∨ c = '_'

/-- A letter, and after it letters, digits and underscores. -/
def IsIdentifier (s : String) : Prop :=
  ∃ first rest, s.toList = first :: rest ∧ IsLetter first ∧ ∀ c ∈ rest, IsIdChar c

/-- A word that starts with a letter. -/
def StartsWithLetter (word : List Char) : Prop := ∃ c ∈ word.head?, IsLetter c

theorem isAlpha_iff {c : Char} : c.isAlpha ↔ IsLetter c := by
  change (decide ('A' ≤ c ∧ c ≤ 'Z') || ('a' ≤ c && c ≤ 'z')) ↔ IsLetter c
  simp only [Bool.or_eq_true, Bool.and_eq_true, decide_eq_true_eq, IsLetter]

theorem isWordChar_iff {c : Char} : isWordChar c ↔ IsIdChar c := by
  rw [isWordChar, Char.isAlphanum, Bool.or_eq_true, Bool.or_eq_true, isAlpha_iff, beq_iff_eq,
    or_assoc, IsIdChar]
  simp only [Char.isDigit, Bool.and_eq_true, decide_eq_true_eq, Char.le_def, ge_iff_le]

theorem any_isAlpha_iff {word : List Char} :
    word.head?.any Char.isAlpha ↔ StartsWithLetter word := by
  simp only [Option.any_eq_true, StartsWithLetter, isAlpha_iff, Option.mem_def]

/-- An identifier is a word that starts with a letter. -/
theorem isIdentifier_iff {s : String} :
    IsIdentifier s ↔ StartsWithLetter s.toList ∧ IsWord s := by
  simp only [IsIdentifier, StartsWithLetter, IsWord, isWordChar_iff]
  constructor
  · rintro ⟨first, rest, hs, hfirst, hrest⟩
    rw [hs]
    exact ⟨⟨first, rfl, hfirst⟩, List.forall_mem_cons.mpr ⟨.inl hfirst, hrest⟩⟩
  · rintro ⟨⟨first, hhead, hfirst⟩, hall⟩
    obtain ⟨rest, hs⟩ := List.head?_eq_some_iff.mp hhead
    rw [hs] at hall ⊢
    exact ⟨first, rest, rfl, hfirst, (List.forall_mem_cons.mp hall).2⟩

/-! ## Words -/

theorem startWithLetter_eq_self {word : List Char} (h : StartsWithLetter word) :
    startWithLetter word = word := by
  rw [startWithLetter, if_pos (any_isAlpha_iff.mpr h)]

theorem startWithLetter_of_not {word : List Char} (h : ¬StartsWithLetter word) :
    startWithLetter word = 'N' :: '_' :: word := by
  rw [startWithLetter, if_neg fun hletter => h (any_isAlpha_iff.mp hletter)]

theorem startsWithLetter_N (word : List Char) : StartsWithLetter ('N' :: word) :=
  ⟨'N', rfl, .inl (by decide)⟩

theorem startsWithLetter_startWithLetter (word : List Char) :
    StartsWithLetter (startWithLetter word) := by
  by_cases h : StartsWithLetter word
  · rwa [startWithLetter_eq_self h]
  · rw [startWithLetter_of_not h]
    exact startsWithLetter_N _

/-- The second word is what the first one becomes when it is made to start with a letter. -/
def Prefixed (word other : List Char) : Prop :=
  ¬StartsWithLetter word ∧ other = 'N' :: '_' :: word

/-- Two words are made equal only if one of them is what the other one becomes. -/
theorem startWithLetter_eq_iff {v w : List Char} :
    startWithLetter v = startWithLetter w ↔ v = w ∨ Prefixed v w ∨ Prefixed w v := by
  constructor
  · intro h
    by_cases hv : StartsWithLetter v
    · rw [startWithLetter_eq_self hv] at h
      by_cases hw : StartsWithLetter w
      · exact .inl (h.trans (startWithLetter_eq_self hw))
      · exact .inr (.inr ⟨hw, h.trans (startWithLetter_of_not hw)⟩)
    · rw [startWithLetter_of_not hv] at h
      by_cases hw : StartsWithLetter w
      · exact .inr (.inl ⟨hv, (h.trans (startWithLetter_eq_self hw)).symm⟩)
      · rw [startWithLetter_of_not hw] at h
        exact .inl (List.cons.inj (List.cons.inj h).2).2
  · rintro (rfl | ⟨hv, rfl⟩ | ⟨hw, rfl⟩)
    · rfl
    · rw [startWithLetter_of_not hv, startWithLetter_eq_self (startsWithLetter_N _)]
    · rw [startWithLetter_of_not hw, startWithLetter_eq_self (startsWithLetter_N _)]

/-- A word is its own image. -/
theorem wordImage_eq_self {s : String} (h : IsWord s) : wordImage s.toList = s.toList :=
  (List.map_congr_left fun c hc => if_pos (h c hc)).trans (List.map_id _)

/-! ## The identifiers of names -/

theorem isIdentifier_nodeId (name : String) : IsIdentifier (nodeId name) := by
  refine isIdentifier_iff.mpr ⟨?_, isWord_nodeId name⟩
  rw [nodeId, String.toList_ofList]
  exact startsWithLetter_startWithLetter _

/-- The texts that are identifiers already are left as they are. -/
theorem nodeId_eq_self {s : String} (h : IsIdentifier s) : nodeId s = s := by
  obtain ⟨hletter, hword⟩ := isIdentifier_iff.mp h
  rw [nodeId, wordImage_eq_self hword, startWithLetter_eq_self hletter, String.ofList_toList]

/-- The identifier of any name is an identifier, and identifiers are the names that stay as they
are. Two names have the same identifier if and only if their images are equal, with an underscore
for each character that is no letter, digit or underscore, or one image does not start with a letter
and the other one is the same with `N_` before it. -/
theorem nodeId_identifies :
    (∀ name, IsIdentifier (nodeId name)) ∧
    (∀ s, nodeId s = s ↔ IsIdentifier s) ∧
    (∀ name, nodeId (nodeId name) = nodeId name) ∧
    (∀ c, isWordChar c ↔ IsIdChar c) ∧
    ∀ a b, nodeId a = nodeId b ↔
      wordImage a.toList = wordImage b.toList ∨
        Prefixed (wordImage a.toList) (wordImage b.toList) ∨
        Prefixed (wordImage b.toList) (wordImage a.toList) := by
  refine ⟨isIdentifier_nodeId, fun s => ⟨fun h => h ▸ isIdentifier_nodeId s, nodeId_eq_self⟩,
    fun name => nodeId_eq_self (isIdentifier_nodeId name), fun c => isWordChar_iff,
    fun a b => ?_⟩
  rw [nodeId, nodeId, String.ofList_inj, startWithLetter_eq_iff]

/-- A character outside the alphabet and a missing letter at the start can make names alike. -/
example : nodeId "1-a" = "N_1_a" ∧ nodeId "N_1 a" = "N_1_a" := by decide

end Flowchart.Diagram
