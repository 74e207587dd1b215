import Flowchart.Yaml.Document
import Flowchart.Yaml.Valuation

/-!
# Reading YAML

From a text to the value of its only document. The whole text has to have the form of a document
before any value in it is looked at.

`library` is the library that this makes for the program. What is proved about runs does not depend
on it, since it holds for every library.
-/

namespace Flowchart.Yaml

/-- Reads a document. A text without a document is null. -/
def read (text : String) : Except Error Value := do
  match ← Document.ofTokens? (tokens text.toList) with
  | none => pure .null
  | some document => document.value

/-- The library that reads documents in this way. -/
def library : Library := fun text => (read text).mapError Error.failure

end Flowchart.Yaml
