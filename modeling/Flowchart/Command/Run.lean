import Flowchart.Command.Usage
import Flowchart.Page
import Flowchart.Source

/-!
# Running the command

A run reads the style file, then the definition, and converts it. Diagnostics go to the error
output. If one of the steps fails, the error is told in a line after them, and then nothing is
written. Otherwise the diagram goes to the standard output or into a file.

* `Draft` is the result of a run before a file is written,
* `run` makes the draft,
* `Draft.save` writes the file of a draft into a tree.
-/

namespace Flowchart.Command

/-- Why a run fails. -/
inductive Failure where
  | load (e : LoadError)
  /-- An option is needed that is set to the marker. -/
  | noValue (flag : Flag)

/-- The message for a failure. -/
def Failure.message : Failure → String
  | load e => e.message
  | noValue flag => "argument " ++ flag.name ++ ": '--' is no value"

/-- What a run has to show: its outputs and its status, and the file it is about to write. -/
structure Draft where
  status : Nat
  stdout : String
  stderr : String
  page : Option (Path × String)
  /-- Why the run fails, if it does. -/
  failure : Option Failure

namespace Options

/-- The engine of the diagram; the word `none` in any case asks for none. -/
def engine (o : Options) : Except Failure (Option String) :=
  match o.layout with
  | .value layout => pure (if Text.lower layout = "none" then none else some layout)
  | .marker => throw (.noValue .layout)

/-- The configuration of the conversion, with the styles that have been loaded. -/
def config (o : Options) (styles : StyleTable) : Except Failure Config :=
  return { direction := o.direction, layout := ← o.engine, title := o.title, styles,
           legend := o.legend }

/-- Whether a diagnostic is shown. -/
def shows (o : Options) (d : Diagnostic) : Bool :=
  d.severity == .warning || o.verbose

/-- The lines that show the diagnostics of a log. -/
def report (o : Options) (log : Log) : String :=
  String.join ((log.entries.filter o.shows).map fun d => d.format ++ "\n")

/-- The title of a page: the one that is asked for, or the name of the input. -/
def pageTitle (o : Options) : String :=
  match Diagram.Header.present? o.title with
  | some title => title
  | none => if o.input = stdinPath then "Flow" else o.input.stem

/-- What is written into the file at a path. -/
def page (o : Options) (path : Path) (code : String) : String :=
  if Text.lower path.suffix = ".md" then markdownPage o.pageTitle code else plainPage code

/-- The definition to be converted, and the configuration under which it is. -/
def load (o : Options) (env : Environment) : Except Failure (Config × Value) := do
  let styles ← match o.styles with
    | some path => (loadStyles env path []).mapError .load
    | none => pure []
  let config ← o.config styles
  return (config, ← (loadDefinition env o.input).mapError .load)

/-- The diagram, and the diagnostics about it. -/
def convert (o : Options) (env : Environment) : Log × Except Failure Conversion :=
  match o.load env with
  | .error e => (.empty [], throw e)
  | .ok (config, definition) =>
    let (log, result) := Flowchart.convert config (.empty []) definition
    (log, result.mapError fun e => .load (.conversion e))

end Options

/-- Whether an error is one that a user is told about. The others are left to the system: paths that
cannot be opened, and what the library for YAML raises of another class. -/
def isExpected : LoadError → Bool
  | .read (.isDirectory _) | .read (.tooLong _) => false
  | .yaml _ (.raised (.other _) _) => false
  | _ => true

/-- Whether a failure is one that a user is told about. -/
def Failure.isExpected : Failure → Bool
  | load e => Command.isExpected e
  | noValue _ => false

/-- A run that fails after `report` has been shown. -/
def failed (report : String) (e : Failure) : Draft :=
  if e.isExpected then ⟨2, "", report ++ "error: " ++ e.message ++ "\n", none, some e⟩
  else ⟨1, "", report, none, some e⟩

/-- A run that converts. -/
def converted (o : Options) (c : Conversion) (log : Log) : Draft :=
  let status := if o.strict && !log.warnings.isEmpty then 2 else 0
  match o.out with
  | none => ⟨status, c.code, o.report log, none, none⟩
  | some (.value path) => ⟨status, "", o.report log, some (path, o.page path c.code), none⟩
  | some .marker => failed (o.report log) (.noValue .out)

/-- Answers a request. -/
def answer (env : Environment) : Request → Draft
  | .help => ⟨0, help, "", none, none⟩
  | .usage e => ⟨2, "", usageMessage e, none, none⟩
  | .convert o =>
    match o.convert env with
    | (log, .ok c) => converted o c log
    | (log, .error e) => failed (o.report log) e

/-- Runs the command with arguments. -/
def run (arguments : List String) (env : Environment) : Draft :=
  answer env (.ofArguments arguments)

/-- The files after the run. -/
def Draft.save (d : Draft) (t : FileTree) : Except WriteError FileTree :=
  match d.page with
  | some (path, text) => t.write path text.toUTF8
  | none => pure t

/-- The files that a request reads. -/
def Request.sources : Request → List Path
  | .convert o => o.styles.toList ++ if o.input = stdinPath then [] else [o.input]
  | .help | .usage _ => []

/-- Whether a request reads the standard input. -/
def Request.readsStdin : Request → Bool
  | .convert o => o.input = stdinPath
  | .help | .usage _ => false

end Flowchart.Command
