import Mathlib.Data.List.Infix
import Flowchart.Json.Reader

/-!
# The grammar of JSON

Which texts are JSON documents, said without a reader.

* Each part of the grammar is a relation between a text and what follows the part in it: `Spaces`,
  `Chars`, `Number`, and `Derives` for what nests. `IsDocument` is a value with nothing but white
  space around it;
* what follows a part is the end of the text, as the lemmas `suffix` say;
* a document may hold an integer that is too long to be read, and then `HasLongNumber` holds.
-/

namespace Flowchart.Json

/-! ## The grammar -/

/-- White space, and then `rest`. -/
inductive Spaces : List Char → List Char → Prop where
  | nil (rest : List Char) : Spaces rest rest
  | cons {c : Char} {s rest : List Char} (space : isSpace c) (h : Spaces s rest) :
      Spaces (c :: s) rest

/-- The characters of a string up to its closing quote. -/
inductive Chars : List Char → List Char → Prop where
  | close (rest : List Char) : Chars ('"' :: rest) rest
  | plain {c : Char} {s rest : List Char} (printed : 0x20 ≤ c.toNat) (quote : c ≠ '"')
      (backslash : c ≠ '\\') (h : Chars s rest) : Chars (c :: s) rest
  | escape {c : Char} {s rest : List Char} (letter : c ∈ ['"', '\\', '/', 'b', 'f', 'n', 'r', 't'])
      (h : Chars s rest) : Chars ('\\' :: c :: s) rest
  | unicode {digits s rest : List Char} (length : digits.length = 4)
      (hex : ∀ c ∈ digits, Text.CharRef.isHexDigit c) (h : Chars s rest) :
      Chars ('\\' :: 'u' :: (digits ++ s)) rest

/-- Decimal digits, at least one, and then `rest`. -/
def Digits (s rest : List Char) : Prop :=
  ∃ digits, digits ≠ [] ∧ (∀ c ∈ digits, c.isDigit) ∧ s = digits ++ rest

/-- A whole number without zeros in front. -/
inductive Whole : List Char → List Char → Prop where
  | zero (rest : List Char) : Whole ('0' :: rest) rest
  | digits {s rest : List Char} (nonzero : s.head? ≠ some '0') (h : Digits s rest) : Whole s rest

/-- A point and digits, or nothing. -/
inductive Fraction : List Char → List Char → Prop where
  | none (rest : List Char) : Fraction rest rest
  | some {s rest : List Char} (h : Digits s rest) : Fraction ('.' :: s) rest

/-- An exponent with or without a sign, or nothing. -/
inductive Exponent : List Char → List Char → Prop where
  | none (rest : List Char) : Exponent rest rest
  | some {e : Char} {sign s rest : List Char} (letter : e = 'e' ∨ e = 'E')
      (plusMinus : sign ∈ [[], ['+'], ['-']]) (h : Digits s rest) : Exponent (e :: (sign ++ s)) rest

/-- A number without a sign. -/
inductive Unsigned : List Char → List Char → Prop where
  | intro {s s₁ s₂ rest : List Char} (whole : Whole s s₁) (fraction : Fraction s₁ s₂)
      (exponent : Exponent s₂ rest) : Unsigned s rest

/-- A number. -/
inductive Number : List Char → List Char → Prop where
  | plain {s rest : List Char} (h : Unsigned s rest) : Number s rest
  | minus {s rest : List Char} (h : Unsigned s rest) : Number ('-' :: s) rest

/-- The parts of a document that hold others. -/
inductive Phrase where
  | value
  /-- The members of an object up to its closing brace. -/
  | members
  /-- The elements of an array up to its closing bracket. -/
  | elements

/-- The words that are values, with those for numbers without digits. -/
def keywords : List String := ["null", "true", "false", "NaN", "Infinity", "-Infinity"]

/-- A phrase, and then `rest`. -/
inductive Derives : Phrase → List Char → List Char → Prop where
  | string {s rest : List Char} (h : Chars s rest) : Derives .value ('"' :: s) rest
  | number {s rest : List Char} (h : Number s rest) : Derives .value s rest
  | word {w : String} (rest : List Char) (h : w ∈ keywords) :
      Derives .value (w.toList ++ rest) rest
  | emptyObject {s rest : List Char} (h : Spaces s ('}' :: rest)) :
      Derives .value ('{' :: s) rest
  | object {s s₁ rest : List Char} (space : Spaces s s₁) (h : Derives .members s₁ rest) :
      Derives .value ('{' :: s) rest
  | emptyArray {s rest : List Char} (h : Spaces s (']' :: rest)) : Derives .value ('[' :: s) rest
  | array {s s₁ rest : List Char} (space : Spaces s s₁) (h : Derives .elements s₁ rest) :
      Derives .value ('[' :: s) rest
  | lastMember {s s₁ s₂ s₃ s₄ rest : List Char} (name : Chars s s₁) (colon : Spaces s₁ (':' :: s₂))
      (space : Spaces s₂ s₃) (h : Derives .value s₃ s₄) (close : Spaces s₄ ('}' :: rest)) :
      Derives .members ('"' :: s) rest
  | member {s s₁ s₂ s₃ s₄ s₅ s₆ rest : List Char} (name : Chars s s₁)
      (colon : Spaces s₁ (':' :: s₂)) (space : Spaces s₂ s₃) (h : Derives .value s₃ s₄)
      (comma : Spaces s₄ (',' :: s₅)) (space' : Spaces s₅ s₆) (more : Derives .members s₆ rest) :
      Derives .members ('"' :: s) rest
  | lastElement {s s₁ rest : List Char} (h : Derives .value s s₁)
      (close : Spaces s₁ (']' :: rest)) : Derives .elements s rest
  | element {s s₁ s₂ s₃ rest : List Char} (h : Derives .value s s₁) (comma : Spaces s₁ (',' :: s₂))
      (space : Spaces s₂ s₃) (more : Derives .elements s₃ rest) : Derives .elements s rest

/-- A JSON document: a value with nothing but white space around it. -/
def IsDocument (s : List Char) : Prop :=
  ∃ s₁ s₂, Spaces s s₁ ∧ Derives .value s₁ s₂ ∧ Spaces s₂ []

/-- More digits in a row than an integer is read from. -/
def HasLongNumber (s : List Char) : Prop :=
  ∃ digits, digits <:+: s ∧ (∀ c ∈ digits, c.isDigit) ∧ Decimal.maxDigits < digits.length

/-! ## What is left is the end of the text -/

theorem Spaces.suffix {s rest : List Char} (h : Spaces s rest) : rest <:+ s := by
  induction h with
  | nil rest => exact List.suffix_refl rest
  | cons _ _ ih => exact ih.trans (List.suffix_cons _ _)

theorem Chars.suffix {s rest : List Char} (h : Chars s rest) : rest <:+ s := by
  induction h with
  | close rest => exact List.suffix_cons _ _
  | plain _ _ _ _ ih => exact ih.trans (List.suffix_cons _ _)
  | escape _ _ ih => exact (ih.trans (List.suffix_cons _ _)).trans (List.suffix_cons _ _)
  | @unicode digits s rest _ _ _ ih =>
    exact ih.trans (List.suffix_append ('\\' :: 'u' :: digits) s)

theorem Digits.suffix {s rest : List Char} (h : Digits s rest) : rest <:+ s := by
  obtain ⟨digits, -, -, rfl⟩ := h
  exact List.suffix_append digits rest

theorem Whole.suffix {s rest : List Char} (h : Whole s rest) : rest <:+ s := by
  cases h with
  | zero => exact List.suffix_cons _ _
  | digits _ h => exact h.suffix

theorem Fraction.suffix {s rest : List Char} (h : Fraction s rest) : rest <:+ s := by
  cases h with
  | none => exact List.suffix_refl _
  | some h => exact h.suffix.trans (List.suffix_cons _ _)

theorem Exponent.suffix {s rest : List Char} (h : Exponent s rest) : rest <:+ s := by
  cases h with
  | none => exact List.suffix_refl _
  | some _ _ h =>
    exact (h.suffix.trans (List.suffix_append _ _)).trans (List.suffix_cons _ _)

theorem Unsigned.suffix {s rest : List Char} (h : Unsigned s rest) : rest <:+ s := by
  obtain ⟨whole, fraction, exponent⟩ := h
  exact (exponent.suffix.trans fraction.suffix).trans whole.suffix

theorem Number.suffix {s rest : List Char} (h : Number s rest) : rest <:+ s := by
  cases h with
  | plain h => exact h.suffix
  | minus h => exact h.suffix.trans (List.suffix_cons _ _)

theorem Derives.suffix {p : Phrase} {s rest : List Char} (h : Derives p s rest) : rest <:+ s := by
  have hcons : ∀ {c : Char} {s t : List Char}, c :: t <:+ s → t <:+ s :=
    fun h => (List.suffix_cons _ _).trans h
  induction h with
  | string h => exact h.suffix.trans (List.suffix_cons _ _)
  | number h => exact h.suffix
  | word rest _ => exact List.suffix_append _ rest
  | emptyObject h | emptyArray h => exact (hcons h.suffix).trans (List.suffix_cons _ _)
  | object space _ ih | array space _ ih =>
    exact (ih.trans space.suffix).trans (List.suffix_cons _ _)
  | lastMember name colon space _ close ih =>
    exact ((((hcons close.suffix).trans ih).trans space.suffix).trans
      ((hcons colon.suffix).trans name.suffix)).trans (List.suffix_cons _ _)
  | member name colon space _ comma space' _ ih₁ ih₂ =>
    exact (((((ih₂.trans space'.suffix).trans (hcons comma.suffix)).trans ih₁).trans
      space.suffix).trans ((hcons colon.suffix).trans name.suffix)).trans (List.suffix_cons _ _)
  | lastElement _ close ih => exact (hcons close.suffix).trans ih
  | element _ comma space _ ih₁ ih₂ =>
    exact ((ih₂.trans space.suffix).trans (hcons comma.suffix)).trans ih₁

theorem HasLongNumber.of_suffix {s t : List Char} (h : HasLongNumber t) (hs : t <:+ s) :
    HasLongNumber s := by
  obtain ⟨digits, hinfix, hdigits, hlong⟩ := h
  exact ⟨digits, hinfix.trans hs.isInfix, hdigits, hlong⟩

end Flowchart.Json
