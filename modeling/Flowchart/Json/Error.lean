import Flowchart.Decimal.Limit
import Flowchart.Text.Position

/-!
# Errors in JSON text

A fault in the text has a kind and a place. One error has no place: an integer literal may be too
long to be read at all.
-/

namespace Flowchart.Json

/-- What is wrong at a place of the text. -/
inductive Problem where
  | byteOrderMark
  /-- No value starts here. -/
  | value
  /-- No member name starts here. -/
  | name
  | colon
  | comma
  /-- The string that starts here has no end. -/
  | unterminated
  | control
  | escape
  | unicodeEscape
  /-- The value has ended before here. -/
  | extra
deriving DecidableEq, Repr

/-- The words for a problem. -/
def Problem.text : Problem → String
  | byteOrderMark => "Unexpected UTF-8 BOM (decode using utf-8-sig)"
  | value => "Expecting value"
  | name => "Expecting property name enclosed in double quotes"
  | colon => "Expecting ':' delimiter"
  | comma => "Expecting ',' delimiter"
  | unterminated => "Unterminated string starting at"
  | control => "Invalid control character at"
  | escape => "Invalid \\escape"
  | unicodeEscape => "Invalid \\uXXXX escape"
  | extra => "Extra data"

/-- Why a text is not a JSON document. -/
inductive Error where
  /-- A problem at an offset, with the line and the column of the offset. -/
  | malformed (problem : Problem) (line column offset : Nat)
  /-- An integer literal with more digits than are read. -/
  | limit (e : Decimal.LimitError)
deriving DecidableEq, Repr

/-- The message for an error. -/
def Error.message : Error → String
  | malformed problem line column offset =>
    problem.text ++ ": line " ++ toString line ++ " column " ++ toString column ++ " (char "
      ++ toString offset ++ ")"
  | limit e => e.message

end Flowchart.Json
