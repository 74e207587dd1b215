/-!
# Positions in a text

A message points into a text by line and column, both counted from one.
-/

namespace Flowchart.Text

/-- The line and the column of the character at an offset. -/
def lineColumn (s : List Char) (offset : Nat) : Nat × Nat :=
  let before := s.take offset
  (before.count '\n' + 1, (before.reverse.takeWhile (· != '\n')).length + 1)

end Flowchart.Text
