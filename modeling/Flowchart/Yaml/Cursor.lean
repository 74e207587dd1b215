/-!
# Places in a YAML text

The layout of a YAML text carries meaning, so a reader has to know the line and the column at which
it is. A `Cursor` is a place in a text together with what follows it.
-/

namespace Flowchart.Yaml

/-- The characters that end a line. -/
def isBreak (c : Char) : Bool :=
  c == '\n' || c == '\r' || c == '\u0085' || c == '\u2028' || c == '\u2029'

/-- A space or a tab. -/
def isBlank (c : Char) : Bool := c == ' ' || c == '\t'

/-- Whether a text starts with a blank or a line break, or is empty. -/
def atGap (s : List Char) : Bool := s.head?.all fun c => isBlank c || isBreak c

/-- Whether a text starts with a space or a line break, or is empty. -/
def atSpace (s : List Char) : Bool := s.head?.all fun c => c == ' ' || isBreak c

/-- Whether a text starts with a line break, or is empty. -/
def atLineEnd (s : List Char) : Bool := s.head?.all isBreak

/-- Whether a text starts with a marker that stands alone. -/
def startsMarker (marker : String) (s : List Char) : Bool :=
  marker.toList.isPrefixOf s && atGap (s.drop 3)

/-- Whether a text starts with a marker between documents. -/
def atDocumentMarker (s : List Char) : Bool := startsMarker "---" s || startsMarker "..." s

/-- A place in a text. -/
structure Cursor where
  /-- The text from here on. -/
  rest : List Char
  /-- The number of characters from here on. -/
  left : Nat
  line : Nat
  column : Nat
deriving Repr

namespace Cursor

/-- The start of a text. -/
def ofText (s : List Char) : Cursor := ⟨s, s.length, 0, 0⟩

/-- The place after the next character. A byte order mark takes no column, and a carriage return
before a line feed does not end the line. -/
def next (c : Cursor) : Cursor :=
  match c.rest with
  | [] => c
  | ch :: rest =>
    if isBreak ch && !(ch == '\r' && rest.head? == some '\n') then ⟨rest, c.left - 1, c.line + 1, 0⟩
    else if ch == '\uFEFF' then ⟨rest, c.left - 1, c.line, c.column⟩
    else ⟨rest, c.left - 1, c.line, c.column + 1⟩

/-- The place after some characters. -/
def forward : Nat → Cursor → Cursor
  | 0, c => c
  | n + 1, c => forward n c.next

/-- Takes characters as long as they satisfy `p`. -/
def takeWhile (p : Char → Bool) (c : Cursor) : List Char × Cursor :=
  let taken := c.rest.takeWhile p
  (taken, c.forward taken.length)

/-- Leaves out characters as long as they satisfy `p`. -/
def dropWhile (p : Char → Bool) (c : Cursor) : Cursor := (c.takeWhile p).2

/-- A line break here, with the place after it. The breaks of the ASCII and Latin blocks are read as
a line feed. -/
def lineBreak? (c : Cursor) : Option (Char × Cursor) :=
  match c.rest with
  | '\r' :: '\n' :: _ => some ('\n', c.forward 2)
  | ch :: _ =>
    if ch == '\u2028' || ch == '\u2029' then some (ch, c.next)
    else if isBreak ch then some ('\n', c.next)
    else none
  | [] => none

/-- Leaves out a comment. -/
def skipComment (c : Cursor) : Cursor :=
  if c.rest.head? = some '#' then c.dropWhile (!isBreak ·) else c

end Cursor

end Flowchart.Yaml
