/-!
# Line ends

A text file may end its lines in one of three ways. Reading makes them one.
-/

namespace Flowchart.Text

/-- A line feed for every carriage return, and one for the two together. -/
def unifyLineEnds : List Char → List Char
  | '\r' :: '\n' :: rest => '\n' :: unifyLineEnds rest
  | '\r' :: rest => '\n' :: unifyLineEnds rest
  | c :: rest => c :: unifyLineEnds rest
  | [] => []

end Flowchart.Text
