import Flowchart.Text.Printable

/-!
# Quoted text

How a message shows a text that came from a document: in quotes, with everything on one line.

* The quotes are single ones, unless the text holds a single quote and no double one.
* The quote in use and the backslash are written after a backslash.
* A character without a printed form is written by its code: `\n`, `\r`, `\t`, else in lower-case
  hexadecimal, with two, four or eight digits.

Bytes are shown in the same way after the letter `b`; those outside ASCII are written by their code.
-/

namespace Flowchart.Text

/-- The digit of a value below sixteen, in lower case. -/
def hexDigit (n : Nat) : Char :=
  if n < 10 then Char.ofNat ('0'.toNat + n) else Char.ofNat ('a'.toNat + (n - 10))

/-- The lowest `width` hexadecimal digits of `n`. -/
def hexDigits : Nat → Nat → List Char
  | 0, _ => []
  | width + 1, n => hexDigits width (n / 16) ++ [hexDigit (n % 16)]

/-- A code point in the shortest of the three widths of escapes. -/
def codeEscape (n : Nat) : List Char :=
  if n < 0x100 then '\\' :: 'x' :: hexDigits 2 n
  else if n < 0x10000 then '\\' :: 'u' :: hexDigits 4 n
  else '\\' :: 'U' :: hexDigits 8 n

/-- One character inside quotes `q`. -/
def quotedChar (q c : Char) : List Char :=
  if c = q ∨ c = '\\' then ['\\', c]
  else if c = '\n' then ['\\', 'n']
  else if c = '\r' then ['\\', 'r']
  else if c = '\t' then ['\\', 't']
  else if isPrintable c then [c]
  else codeEscape c.toNat

/-- The quote that needs fewer escapes; the single one if both or neither occur. -/
def quoteFor (s : List Char) : Char :=
  if '\'' ∈ s ∧ '"' ∉ s then '"' else '\''

/-- The text between quotes, with its escapes. -/
def quoted (s : String) : String :=
  let q := quoteFor s.toList
  String.ofList (q :: s.toList.flatMap (quotedChar q) ++ [q])

/-- Bytes between quotes. -/
def quotedBytes (bytes : List UInt8) : String :=
  let cs := bytes.map fun b => Char.ofNat b.toNat
  let q := quoteFor cs
  let shown (c : Char) : List Char :=
    if c.toNat < 0x80 then quotedChar q c else codeEscape c.toNat
  String.ofList ('b' :: q :: cs.flatMap shown ++ [q])

end Flowchart.Text
