import Flowchart.Text.Case.Tables

/-!
# Letter case

`lower` writes a text in small letters, as Unicode does for every language but a few: letter by
letter, except that

* a dotted capital I keeps its dot as a mark,
* a capital sigma becomes the final form at the end of a word, where letters stand before it and
  none behind it. The marks and signs inside a word do not end it.
-/

namespace Flowchart.Text

namespace Case

/-- Whether a code point lies in one of the ranges. -/
private def isWithin (ranges : List (Nat × Nat)) (c : Char) : Bool :=
  ranges.any fun (first, last) => first ≤ c.toNat && c.toNat ≤ last

/-- A mark or sign that the case of a word does not depend on. -/
def isIgnorable (c : Char) : Bool := isWithin ignorableRanges c

/-- A letter with a case. -/
def isCased (c : Char) : Bool := isWithin casedRanges c

/-- Whether a capital belongs to a range. -/
def SmallRange.contains (r : SmallRange) (c : Char) : Bool :=
  r.first ≤ c.toNat && c.toNat ≤ r.last && (c.toNat - r.first) % r.stride == 0

/-- The small letter of a letter that stands alone. -/
def small (c : Char) : List Char :=
  if c.toNat < 0x80 then [c.toLower]
  else if c = '\u0130' then ['i', '\u0307']
  else
    match smallRanges.find? (·.contains c) with
    | some r => [Char.ofNat (c.toNat + r.shift).toNat]
    | none => [c]

/-- Small letters for `s`; `inWord` says whether a letter with a case comes right before it. -/
def lowerFrom (inWord : Bool) : List Char → List Char
  | [] => []
  | c :: rest =>
    let isFinal := inWord && !(rest.dropWhile isIgnorable).head?.any isCased
    let letters := if c = '\u03A3' then [if isFinal then '\u03C2' else '\u03C3'] else small c
    letters ++ lowerFrom (if isIgnorable c then inWord else isCased c) rest

end Case

/-- The text in small letters. -/
def lower (s : String) : String :=
  String.ofList (Case.lowerFrom false s.toList)

end Flowchart.Text
