import Flowchart.Text.Blank
import Flowchart.Text.CharRef

/-!
# Labels

Two steps lead from the name of an action to the text in its node:

* `displayName` makes the name readable: no parentheses, spaces for underscores,
* `labelText` makes it safe inside a diagram line: references are decoded, blanks are collapsed,
  and the five characters that could end the label are written as codes of the diagram language.
-/

namespace Flowchart.Diagram

/-- What an action without any visible character is called. -/
def unnamed : String := "Unnamed Action"

/-- The readable form of the name of an action or a case. -/
def displayName (name : String) : String :=
  let kept := name.toList.filter fun c => c != '(' && c != ')'
  match Text.trim (kept.map fun c => if c == '_' then ' ' else c) with
  | [] => unnamed
  | shown => String.ofList shown

/-- The code of a character that cannot stand in a label. -/
def labelChar : Char → List Char
  | '&' => "#amp;".toList
  | '<' => "#lt;".toList
  | '>' => "#gt;".toList
  | '"' => "#quot;".toList
  | '|' => "#124;".toList
  | c => [c]

/-- What a label shows: the text with its references decoded and its blanks collapsed. -/
def visibleText (text : List Char) : List Char :=
  Text.trim (Text.squeeze (Text.CharRef.decode text))

/-- The form of a text inside a label. -/
def labelText (text : String) : String :=
  String.ofList ((visibleText text.toList).flatMap labelChar)

/-- Why a text has no form inside a label. -/
def labelLimit? (text : String) : Option Decimal.LimitError :=
  Text.CharRef.limit? text.toList

end Flowchart.Diagram
