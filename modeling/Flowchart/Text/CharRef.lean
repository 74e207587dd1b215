import Flowchart.Decimal.Limit
import Flowchart.Text.CharRef.Names

/-!
# Character references

Text exported from a browser may hold references such as `&amp;` or `&#38;`. `decode` replaces
them by what they stand for, in one pass from left to right, as HTML 5 does for text content:

* a numeric reference gives its code point, with the corrections of `ofCode`,
* a named one gives the longest name of the table that starts at the ampersand, and the semicolon
  belongs to the name,
* an ampersand that starts neither is an ampersand.

What a reference stands for is not scanned again. A numeric reference in decimal is subject to the
limit on digits; `limit?` finds the first one that exceeds it.
-/

namespace Flowchart.Text.CharRef

/-- What the code points 128 to 159 mean in a numeric reference: the characters that the
windows-1252 encoding has there. Five of them have no character and stay controls. -/
def windows1252 : List Nat :=
  [0x20AC, 0x81, 0x201A, 0x192, 0x201E, 0x2026, 0x2020, 0x2021, 0x2C6, 0x2030, 0x160, 0x2039,
    0x152, 0x8D, 0x17D, 0x8F, 0x90, 0x2018, 0x2019, 0x201C, 0x201D, 0x2022, 0x2013, 0x2014, 0x2DC,
    0x2122, 0x161, 0x203A, 0x153, 0x9D, 0x17E, 0x178]

/-- Controls and noncharacters, which a numeric reference cannot produce. -/
def isForbidden (n : Nat) : Bool :=
  (0x1 ≤ n && n ≤ 0x8) || n == 0xB || (0xE ≤ n && n ≤ 0x1F) || n == 0x7F
    || (0xFDD0 ≤ n && n ≤ 0xFDEF) || 0xFFFE ≤ n % 0x10000

/-- The text of a numeric reference. Zero, a surrogate and a number past the last code point give
the replacement character; a forbidden number gives nothing. -/
def ofCode (n : Nat) : List Char :=
  if n = 0 then ['\uFFFD']
  else if 0x80 ≤ n ∧ n ≤ 0x9F then [Char.ofNat (windows1252.getD (n - 0x80) n)]
  else if (0xD800 ≤ n ∧ n ≤ 0xDFFF) ∨ 0x10FFFF < n then ['\uFFFD']
  else if isForbidden n then []
  else [Char.ofNat n]

/-- The value of a digit in any base up to sixteen. -/
def digitValue (c : Char) : Nat :=
  if c.isDigit then c.toNat - '0'.toNat
  else if 'a' ≤ c ∧ c ≤ 'f' then c.toNat - 'a'.toNat + 10
  else if 'A' ≤ c ∧ c ≤ 'F' then c.toNat - 'A'.toNat + 10
  else 0

/-- A hexadecimal digit of either case. -/
def isHexDigit (c : Char) : Bool :=
  c.isDigit || ('a' ≤ c && c ≤ 'f') || ('A' ≤ c && c ≤ 'F')

/-- The number that the digits write in `base`. -/
def ofDigits (base : Nat) (digits : List Char) : Nat :=
  digits.foldl (fun n c => n * base + digitValue c) 0

/-- A semicolon right after a numeric reference belongs to it. -/
private def semicolon (s : List Char) : Nat :=
  if s.head? = some ';' then 1 else 0

/-- A numeric reference: the digits in `base` that start `s`. Gives the text and how many
characters of `s` it takes. -/
def numeric? (base : Nat) (isDigit : Char → Bool) (s : List Char) : Option (List Char × Nat) :=
  match s.takeWhile isDigit with
  | [] => none
  | digits =>
    some (ofCode (ofDigits base digits), digits.length + semicolon (s.drop digits.length))

/-- The characters that a name is made of. -/
def isNameChar (c : Char) : Bool :=
  !(c == '\t' || c == '\n' || c == '\x0c' || c == ' ' || c == '<' || c == '&' || c == '#'
    || c == ';')

/-- The longest name among the first `n` characters of `s`, and its length. -/
def longestName? (s : List Char) : Nat → Option (List Char × Nat)
  | 0 => none
  | n + 1 =>
    match Names.find? (s.take (n + 1)) with
    | some text => some (text, n + 1)
    | none => longestName? s n

/-- A named reference. At most 32 characters before the semicolon are considered. -/
def named? (s : List Char) : Option (List Char × Nat) :=
  let body := (s.take 32).takeWhile isNameChar
  longestName? s (body.length + semicolon (s.drop body.length))

/-- The reference that an ampersand before `s` starts: its text, and how much of `s` it takes. -/
def reference? : List Char → Option (List Char × Nat)
  | '#' :: 'x' :: s | '#' :: 'X' :: s =>
    (numeric? 16 isHexDigit s).map fun (text, n) => (text, n + 2)
  | '#' :: s => (numeric? 10 Char.isDigit s).map fun (text, n) => (text, n + 1)
  | s => named? s

/-- Replaces every reference by its text. -/
def decode : List Char → List Char
  | [] => []
  | c :: rest =>
    if c = '&' then
      match reference? rest with
      | some (text, n) => text ++ decode (rest.drop n)
      | none => c :: decode rest
    else c :: decode rest
termination_by s => s.length
decreasing_by all_goals (simp only [List.length_drop, List.length_cons]; omega)

/-- The first decimal reference with more digits than are read. No reference starts inside another
one, so every ampersand is looked at by itself. -/
def limit? : List Char → Option Decimal.LimitError
  | [] => none
  | c :: rest =>
    let digits := match rest with
      | '#' :: s => if c = '&' then (s.takeWhile Char.isDigit).length else 0
      | _ => 0
    if Decimal.maxDigits < digits then some (.reading digits) else limit? rest

end Flowchart.Text.CharRef
