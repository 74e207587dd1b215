import Flowchart.Conversion
import Flowchart.FileTree
import Flowchart.Style.Override
import Flowchart.Text.Case
import Flowchart.Text.Lines
import Flowchart.Text.Utf8
import Flowchart.Yaml.Library

/-!
# Sources

Where definitions and styles come from: files of text, or the standard input. What is in YAML is
read by the library for it.

* `loadDefinition` reads YAML from a file whose name says so, and JSON from everything else,
* `loadStyles` reads a style file in YAML, which may keep its kinds under a key of its own.
-/

namespace Flowchart

/-- Why a source gives nothing. -/
inductive LoadError where
  | read (e : ReadError)
  /-- The bytes of a file are no text. -/
  | encoding (e : Text.Utf8.Error)
  | conversion (e : ConversionError)
  | yaml (path : Path) (e : Yaml.Failure)
  /-- A style file holds something else than a map. -/
  | stylesFile (path : Path) (found : Value)
  /-- The styles in a style file are something else than a map. -/
  | stylesEntry (path : Path) (found : Value)
  | style (e : StyleError)

/-- The message for an error. -/
def LoadError.message : LoadError → String
  | read e => e.message
  | encoding e => e.message
  | conversion e => e.message
  | yaml path e => e.message path.text
  | stylesFile path found =>
    "Top-level YAML must be a mapping in " ++ path.text ++ ", got " ++ found.typeName
  | stylesEntry path found =>
    "\x60styles\x60 must be a mapping in " ++ path.text ++ ", got " ++ found.typeName
  | style e => e.message

/-- The path that stands for the standard input. -/
def stdinPath : Path := ⟨"", ["-"]⟩

/-- What a run finds: the files, the standard input, and the library that reads YAML. -/
structure Environment where
  tree : FileTree
  stdin : ByteArray
  yaml : Yaml.Library

namespace Environment

/-- The text of a file, with its line ends unified. -/
def readText (env : Environment) (p : Path) : Except LoadError String := do
  let bytes ← (env.tree.read p).mapError .read
  let chars ← (Text.Utf8.decode bytes).mapError .encoding
  return String.ofList (Text.unifyLineEnds chars)

/-- The text of the standard input, with its line ends unified. -/
def readStdin (env : Environment) : Except LoadError String := do
  let chars ← (Text.Utf8.decode env.stdin).mapError .encoding
  return String.ofList (Text.unifyLineEnds chars)

/-- The value of a file in YAML. -/
def readYaml (env : Environment) (p : Path) : Except LoadError Value := do
  (env.yaml (← env.readText p)).mapError (.yaml p)

end Environment

/-- Whether the name of a file says that it holds YAML. -/
def isYamlPath (p : Path) : Bool :=
  [".yaml", ".yml"].contains (Text.lower p.suffix)

/-- Loads the definition of a workflow. -/
def loadDefinition (env : Environment) (p : Path) : Except LoadError Value := do
  if isYamlPath p then env.readYaml p
  else
    let text ← if p = stdinPath then env.readStdin else env.readText p
    (readJson text).mapError .conversion

/-- Loads a style file into a table of overrides. A file without content changes nothing. -/
def loadStyles (env : Environment) (p : Path) (base : StyleTable) :
    Except LoadError StyleTable := do
  match ← env.readYaml p with
  | .null => return base
  | .map entries =>
    match (Value.field? entries "styles").getD (.map entries) with
    | .map kinds => (base.merge kinds).mapError .style
    | found => throw (.stylesEntry p found)
  | found => throw (.stylesFile p found)

end Flowchart
