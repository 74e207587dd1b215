/-!
# Blank characters

White space as labels, titles and diagram text know it: the ASCII controls that move the
cursor, the four information separators, and every space or separator of Unicode.

Three operations on text live here:

* `trim` and `trimEnd`, which drop the blanks around a text or after it,
* `squeeze`, which turns every run of blanks into one space.
-/

namespace Flowchart.Text

/-- The characters that count as white space. The zero-width ones do not. -/
def isBlank (c : Char) : Bool :=
  let n := c.toNat
  (0x09 ≤ n && n ≤ 0x0D) || (0x1C ≤ n && n ≤ 0x20) || n == 0x85 || n == 0xA0 || n == 0x1680
    || (0x2000 ≤ n && n ≤ 0x200A) || n == 0x2028 || n == 0x2029 || n == 0x202F || n == 0x205F
    || n == 0x3000

theorem isBlank_space : isBlank ' ' = true := rfl

/-- Drops the blanks at the end. -/
def trimEnd (s : List Char) : List Char :=
  (s.reverse.dropWhile isBlank).reverse

/-- Drops the blanks on both sides. -/
def trim (s : List Char) : List Char :=
  trimEnd (s.dropWhile isBlank)

/-- Turns each run of blanks into a single space: a blank before another blank is left out,
and the last one of its run becomes the space. -/
def squeeze : List Char → List Char
  | [] => []
  | c :: rest =>
    if isBlank c then
      if rest.head?.any isBlank then squeeze rest else ' ' :: squeeze rest
    else c :: squeeze rest

end Flowchart.Text
